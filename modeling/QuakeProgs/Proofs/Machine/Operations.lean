/-
  File:      QuakeProgs/Proofs/Machine/Operations.lean
  Subject:   HOSTS THAT ACT THROUGH OPERATIONS, and the machines that come after a machine.

  A builtin of the host may do to a machine whatever commands do, short of another image. It may look at the outcome,
  execute functions, and go on when they fail. Machines stay in order all the same: only the stacks may be gone.

  * `Engine.Operates`, `Routine.Operates` -- an action, and a builtin of the host, made of operations;
  * `Engine.execute_sound`, `Reachable.orderly` -- machines stay in order, also where executions fail unseen;
  * `Later` -- all that can come after a machine, as long as it has the same image;
  * `Machine.Continues` -- the same program, and entities that came about by operations;
  * `Later.sound`, `Later.continues` -- so it is with all that comes after;
  * `Engine.record_of_known`, `Engine.checkWrite_ok_iff` -- which words of its entities can be written to.
-/
import QuakeProgs.Proofs.Machine.Framing

namespace QuakeProgs

open Engine

/-! ## 1. Builtins made of operations. -/

/-- **An action made of operations.** An operation does what a command does, and may give a result. -/
inductive Engine.Operates : {α : Type} → Engine α → Prop
  | pure {α : Type} (a : α) : Operates (Pure.pure a)
  | throw {α : Type} (e : Error) : Operates (throw e : Engine α)
  | reads {α : Type} (f : Machine → Except Error α) : Operates (reads f)
  | operation {α : Type} {act : Engine α} (c : Command) : c.replaces = false → discard act = c.perform →
      Operates act
  | bind {α β : Type} {x : Engine β} {f : β → Engine α} : Operates x → (∀ b, Operates (f b)) → Operates (x >>= f)
  | attempt {α : Type} {act : Engine α} : Operates act → Operates (attempt act)

/-- **A builtin of the host made of operations**, before, between and after its executions. -/
def Routine.Operates : Routine → Prop
  | .finish act => Engine.Operates act
  | .exec target next => Engine.Operates target ∧ ∀ outcome, (next outcome).Operates
  | .look next => ∀ m, (next m).Operates

section Operates

variable {α : Type} {I : Machine → Prop}

/-- The result aside, an operation is its command. -/
theorem Engine.Maintains.of_discard {act : Engine α} (h : Maintains I (discard act)) : Maintains I act := by
  intro m hm
  have ends := h m hm
  refine ends_iff.mpr ⟨fun a m' ok => ?_, fun e m' failed => ?_⟩
  · exact ends.ok (bind_of_ok ok)
  · exact ends.error (bind_of_error failed)

theorem Engine.Operates.maintains (commands : ∀ c : Command, c.replaces = false → Maintains I c.perform)
    {act : Engine α} (h : Operates act) : Maintains I act := by
  induction h with
  | pure a => exact .pure a
  | throw e => exact fun _ h => h
  | reads f => exact .reads f
  | operation c stays same =>
    refine .of_discard ?_
    rw [same]
    exact commands c stays
  | bind _ _ hx hf => exact hx.bind hf
  | attempt _ ih => exact fun m h => ends_attempt (ih m h)

theorem Routine.Operates.keeps (commands : ∀ c : Command, c.replaces = false → Maintains I c.perform) {r : Routine}
    (h : r.Operates) : r.Keeps I := by
  induction r with
  | finish act => exact Engine.Operates.maintains commands h
  | exec target next ih => exact ⟨Engine.Operates.maintains commands h.1, fun outcome => ih outcome (h.2 outcome)⟩
  | look next ih => exact fun m => ih m (h m)

/-- A command that does not start over keeps what everything keeps. -/
theorem Abiding.command (abiding : Abiding I) {c : Command} (stays : c.replaces = false) : Maintains I c.perform :=
  fun m h => (c.perform_serving stays m).mono (fun _ _ s => abiding.serviced h s) fun _ _ s => abiding.serviced h s

/-- **All builtins keep what everything keeps**, executions being nested to any depth. -/
theorem Abiding.link (abiding : Abiding I) {routines : Nat → Routine} (host : ∀ key, (routines key).Operates)
    (nesting : Nat) (native : Native) : Maintains I (Dispatch.link routines nesting native) :=
  Dispatch.link_maintains abiding (fun key => (host key).keeps fun _ => abiding.command) nesting native

end Operates

/-! ## 2. Machines stay in order. -/

/-- Every command leaves a machine in order. -/
theorem Command.perform_sound (c : Command) : Maintains Machine.Sound c.perform := by
  intro m sound
  refine (c.perform_ends sound).mono ?_ fun _ _ kept => sound.keeps kept
  rintro _ m' (kept | ⟨-, -, replaced, -⟩)
  · exact sound.keeps kept
  · exact replaced

/-- So does every builtin of the engine. -/
theorem Engine.core_sound (b : CoreBuiltin) : Maintains Machine.Sound (core b) := by
  intro m sound
  have quiet := core_quiet sound.program.wellKnown b m (.refl sound.cursor sound.edicts)
  exact quiet.mono (fun _ _ stays => sound.persists stays.toEvolves.persists)
    fun _ _ stays => sound.persists stays.1.toEvolves.persists

namespace Machine

variable {dispatch : Native → Engine Unit} {m m' : Machine}

theorem Sound.evolves (sound : m.Sound) (h : m.Evolves m') : m'.Sound := sound.persists h.persists

theorem Sound.started (sound : m.Sound) : m.started.Sound := { sound with }

variable (served : ∀ native, Maintains Sound (dispatch native))
include served

theorem Turned.sound (sound : m.Sound) {flow : Flow} (h : m.Turned dispatch flow m') : m'.Sound := by
  cases h with
  | passed _ glides => exact sound.evolves glides.toEvolves
  | jumped _ _ glides => exact sound.evolves glides.toEvolves
  | served _ _ glides done => exact (served _ _ (sound.evolves glides.toEvolves)).ok done
  | entered _ _ enters => exact sound.evolves enters.evolves
  | left leaves => exact sound.evolves leaves.evolves

theorem Stopped.sound (sound : m.Sound) {e : Error} (h : m.Stopped dispatch e m') : m'.Sound := by
  cases h with
  | absent _ evolves => exact sound.evolves evolves
  | refused evolves _ => exact sound.evolves evolves
  | unserved _ glides failed => exact (served _ _ (sound.evolves glides.toEvolves)).error failed
  | stuck evolves _ => exact sound.evolves evolves

end Machine

section Sound

variable {dispatch : Native → Engine Unit} (served : ∀ native, Maintains Machine.Sound (dispatch native))
include served

/-- A turn of the loop. -/
theorem Engine.cycle_sound {m : Machine} (sound : m.Sound) :
    Ends (cycle dispatch m.statement) m (fun _ m' => m'.Sound) fun _ m' => m'.Sound :=
  (cycle_ends sound.toReady).mono (fun _ _ turned => turned.sound served sound)
    fun _ _ stopped => stopped.sound served sound

/-- **Every machine of a run is in order**, whether the stacks are as its calls left them or not. -/
theorem Visits.sound {f : FuncRef} {m₀ m : Machine} {opened : List Opened} (sound : m₀.Sound)
    (h : Visits dispatch f m₀ opened m) : m.Sound := by
  have turned : ∀ {m m' : Machine} {flow : Flow}, cycle dispatch m.statement m = .ok flow m' → m.Sound →
      ∀ pc, (m'.moveTo pc).Sound := fun done sound pc => { (cycle_sound served sound).ok done with }
  induction h with
  | entered entry =>
    obtain ⟨func, enters⟩ := (enter_ends sound.toReady f).ok entry
    exact { sound.evolves enters.evolves with }
  | next _ done ih => exact turned done ih _
  | jumped _ done _ ih => exact turned done ih _
  | called _ done _ ih => exact turned done ih _
  | returned _ done _ ih => exact turned done ih _

/-- So is what it leaves. -/
theorem Engine.run_sound (f : FuncRef) : Maintains Machine.Sound (run dispatch f) := by
  intro m sound
  have glides := (Machine.Stays.refl sound.cursor sound.edicts).glides
  refine ends_bind ((function_ends m f).mono ?_ fun _ _ same => same.1 ▸ sound)
  rintro func _ ⟨rfl, -, -⟩
  cases func.builtinNumber? with
  | some number =>
    refine (callBuiltin_ends sound.toReady glides number f).mono ?_ ?_
    · rintro _ m' (glides | ⟨b, m₁, -, glides, done⟩)
      · exact sound.evolves glides.toEvolves
      · exact (served _ _ (sound.evolves glides.toEvolves)).ok done
    · rintro _ m' (⟨evolves, -⟩ | ⟨b, m₁, -, glides, failed⟩)
      · exact sound.evolves evolves
      · exact (served _ _ (sound.evolves glides.toEvolves)).error failed
  | none =>
    refine ends_bind (ends_get (ends_bind (ends_iff.mpr ⟨fun entry m₁ entered => ?_, fun e m₁ refused => ?_⟩)))
    · refine (loop_ends (.entered entered)).mono ?_ ?_
      · rintro _ m' ⟨opened, m₂, caller, visits, done, -⟩
        exact (cycle_sound served (visits.sound served sound)).ok done
      · rintro e m' ⟨opened, m₂, visits, failed | ⟨-, rfl⟩⟩
        · exact (cycle_sound served (visits.sound served sound)).error failed
        · exact visits.sound served sound
    · exact sound.evolves ((enter_ends sound.toReady f).error refused).1

/-- **An execution leaves a machine in order**, if every builtin does. -/
theorem Engine.execute_sound (f : FuncRef) : Maintains Machine.Sound (execute dispatch f) := by
  intro m sound
  have ran := run_sound served f m.started sound.started
  refine (execute_outcome dispatch f m).mono ?_ ?_
  · rintro _ _ ⟨m₁, done, rfl⟩
    exact { ran.ok done with }
  · rintro _ _ ⟨e₁, m₁, m₂, broke, reported, rfl⟩
    obtain ⟨-, host, rfl⟩ := (report_ends e₁ m₁).ok reported
    exact { ran.error broke with }

end Sound

/-- **All builtins leave a machine in order**, executions being nested to any depth. -/
theorem Dispatch.link_sound {routines : Nat → Routine} (host : ∀ key, (routines key).Operates) (nesting : Nat)
    (native : Native) : Maintains Machine.Sound (link routines nesting native) := by
  induction nesting generalizing native with
  | zero =>
    cases native with
    | core b => exact core_sound b
    | hosted key => exact .fail _
  | succ nesting ih =>
    cases native with
    | core b => exact core_sound b
    | hosted key => exact Routine.Keeps.run (execute_sound ih) _ ((host key).keeps fun c _ => c.perform_sound)

/-- **Every machine that can be reached is in order**, also where builtins of the host survive failed executions. -/
theorem Reachable.orderly {routines : Nat → Routine} {registry : Registry} {m : Machine}
    (host : ∀ key, (routines key).Operates) (h : Reachable routines registry m) : m.Sound := by
  induction h with
  | fresh config loaded => exact (Machine.sound_new (Image.load_checked loaded) config registry).1
  | command c _ after ih => exact Ends.after (c.perform_sound _ ih) after
  | executed nesting f _ after ih => exact Ends.after (execute_sound (Dispatch.link_sound host nesting) f _ ih) after
  | begun _ ih => exact { ih with }
  | within nesting _ visits ih => exact visits.sound (Dispatch.link_sound host nesting) ih.started
  | underway _ _ _ _ _ ih => exact { ih with }

theorem Reachable.furnished {routines : Nat → Routine} {registry : Registry} {m : Machine}
    (host : ∀ key, (routines key).Operates) (h : Reachable routines registry m) : m.Furnished :=
  h.endures Machine.enduring_furnished fun key => (host key).keeps fun _ =>
    Machine.enduring_furnished.toAbiding.command

/-! ## 3. All that comes after. -/

/-- **The machines that come after `m₀`**, with the same image: the host gives commands and executes functions, and so
    do its builtins; statements are run. Where an execution begins, goes on to another statement, ends or is aborted,
    its stacks, its registers and what is counted and told may have changed in any way. -/
inductive Later (routines : Nat → Routine) (m₀ : Machine) : Machine → Prop
  | now : Later routines m₀ m₀
  /-- A command was given. -/
  | command {m m' : Machine} (c : Command) : c.replaces = false → Later routines m₀ m → After c.perform m m' →
      Later routines m₀ m'
  /-- A function was executed. -/
  | executed {m m' : Machine} (nesting : Nat) (f : FuncRef) : Later routines m₀ m →
      After (execute (Dispatch.link routines nesting) f) m m' → Later routines m₀ m'
  /-- A function is being executed. -/
  | within {m m' : Machine} (nesting : Nat) {f : FuncRef} {opened : List Opened} : Later routines m₀ m →
      Visits (Dispatch.link routines nesting) f m.started opened m' → Later routines m₀ m'
  /-- A statement was run. -/
  | turned {m m' : Machine} (nesting : Nat) : Later routines m₀ m →
      After (cycle (Dispatch.link routines nesting) m.statement) m m' → Later routines m₀ m'
  /-- An execution goes on elsewhere. -/
  | control {m : Machine} (host : Host) (frames : Array Frame) (words : Array Word) (current : FuncRef)
      (statement argc : Nat) (state : ExecState) (profile : Profile) : Later routines m₀ m →
      Later routines m₀ { m with
        host, current, statement, argc, state, profile
        calls := { m.calls with frames }
        locals := { m.locals with words } }

/-- **The same program goes on**, and the entities came about from those of `m₀` by operations. -/
structure Machine.Continues (m₀ m : Machine) : Prop where
  program : m.program = m₀.program
  hot : m.hot = m₀.hot
  edicts : ∃ cs : List StoreCommand, m.edicts = cs.foldl EdictStore.after m₀.edicts

namespace Machine

variable {m₀ m : Machine}

theorem Continues.refl (m : Machine) : m.Continues m := ⟨rfl, rfl, [], rfl⟩

theorem abiding_continues (m₀ : Machine) : Abiding m₀.Continues where
  data h := { h with }
  texts _ h := { h with }
  store c h := by
    obtain ⟨cs, made⟩ := h.edicts
    exact { h with edicts := ⟨cs ++ [c], by rw [List.foldl_append, ← made]; rfl⟩ }
  tell _ h := { h with }
  push h := { h with }
  enter _ _ h := { h with }
  pop _ h := { h with }
  serviced h s := by
    obtain ⟨cs, made⟩ := h.edicts
    obtain ⟨cs', made'⟩ := s.edicts
    exact ⟨s.program.trans h.program, s.hot.trans h.hot, cs ++ cs', by rw [List.foldl_append, ← made, made']⟩
  control h := { h with }

/-- The records keep their places. -/
theorem Continues.furnished (h : m₀.Continues m) (furnished : m₀.Furnished) : m.Furnished := by
  obtain ⟨config, ordered⟩ := furnished.edicts
  obtain ⟨cs, made⟩ := h.edicts
  refine ⟨by rw [h.hot, h.program, furnished.hot], h.program ▸ furnished.fields, config, ?_⟩
  rw [made, h.program]
  exact ordered.foldl cs

/-- **The store never gives a record up.** -/
theorem Continues.count_le (h : m₀.Continues m) (furnished : m₀.Furnished) :
    m₀.edicts.count ≤ m.edicts.count := by
  obtain ⟨config, ordered⟩ := furnished.edicts
  obtain ⟨cs, made⟩ := h.edicts
  rw [made]
  exact ordered.count_le_foldl cs

end Machine

namespace Later

variable {routines : Nat → Routine} {m₀ m : Machine}

theorem trans {m₁ : Machine} (h : Later routines m₀ m₁) (h' : Later routines m₁ m) : Later routines m₀ m := by
  induction h' with
  | now => exact h
  | command c stays _ after ih => exact .command c stays ih after
  | executed nesting f _ after ih => exact .executed nesting f ih after
  | within nesting _ visits ih => exact .within nesting ih visits
  | turned nesting _ after ih => exact .turned nesting ih after
  | control host frames words current statement argc state profile _ ih =>
    exact .control host frames words current statement argc state profile ih

/-- **All that comes after a machine in order is in order.** -/
theorem sound (host : ∀ key, (routines key).Operates) (sound₀ : m₀.Sound) (h : Later routines m₀ m) : m.Sound := by
  induction h with
  | now => exact sound₀
  | command c _ _ after ih => exact Ends.after (c.perform_sound _ ih) after
  | executed nesting f _ after ih => exact Ends.after (execute_sound (Dispatch.link_sound host nesting) f _ ih) after
  | within nesting _ visits ih => exact visits.sound (Dispatch.link_sound host nesting) ih.started
  | turned nesting _ after ih => exact Ends.after (cycle_sound (Dispatch.link_sound host nesting) ih) after
  | control _ _ _ _ _ _ _ _ _ ih => exact { ih with }

/-- **All that comes after has the same program**, and its entities came about by operations. -/
theorem continues (host : ∀ key, (routines key).Operates) (h : Later routines m₀ m) : m₀.Continues m := by
  have abiding := Machine.abiding_continues m₀
  induction h with
  | now => exact .refl m₀
  | command c stays _ after ih => exact Ends.after (abiding.command stays _ ih) after
  | executed nesting f _ after ih =>
    exact Ends.after (execute_maintains abiding (abiding.link host nesting) f _ ih) after
  | within nesting _ visits ih =>
    exact maintained_of_visits abiding.toLasting (abiding.link host nesting) visits (abiding.control ih)
  | turned nesting _ after ih =>
    exact Ends.after (cycle_maintains abiding.toLasting (abiding.link host nesting) _ _ ih) after
  | control _ _ _ _ _ _ _ _ _ ih => exact abiding.control ih

end Later

/-! ## 4. Records and globals that can be written to. -/

theorem Machine.Furnished.fieldWords {m : Machine} (h : m.Furnished) :
    m.edicts.fieldWords = m.program.entityFields := by
  obtain ⟨config, ordered⟩ := h.edicts
  exact ordered.marked.width

namespace Engine

variable {m : Machine} {id : EdictId} {ofs n : Nat} {ws : List Word}

/-- Every record is as wide as the store says. -/
theorem record_of_known (sound : m.Sound) (furnished : m.Furnished) (known : id.toNat < m.edicts.count) :
    ∃ record, m.edicts.get id = .ok record ∧ record.fields.size = m.edicts.fieldWords := by
  obtain ⟨record, found⟩ := (sound.edicts.get_ok_iff id).mpr known
  exact ⟨record, found, (furnished.width found).trans furnished.fieldWords.symm⟩

/-- A record that the store has can be written to where it has the words. -/
theorem checkWrite_ok_iff (sound : m.Sound) (furnished : m.Furnished) (known : id.toNat < m.edicts.count) :
    m.edicts.checkWrite id ofs n = .ok () ↔ ofs + n ≤ m.edicts.fieldWords := by
  obtain ⟨record, found, width⟩ := record_of_known sound furnished known
  have checks : m.edicts.checkWrite id ofs n = record.check ofs n := by
    rw [EdictStore.checkWrite, found]
    rfl
  rw [checks, Edict.check, width]
  by_cases room : ofs + n ≤ m.edicts.fieldWords
  · simp [room]
  · simp [room]

theorem writeField_of_checked (checked : m.edicts.checkWrite id ofs ws.length = .ok ()) :
    writeField id ofs ws m = .ok () { m with edicts := m.edicts.overwrite id ofs ws } :=
  update_of_ok checked _

theorem write_of_room (room : ofs + ws.length ≤ m.globals.size) :
    write ofs ws m = .ok () { m with globals := m.globals.overwrite ofs ws } := by
  rw [write, update, GlobalBlock.check, if_pos room]

theorem word_of_getElem? {w : Word} (h : m.globals.words[ofs]? = some w) : word ofs m = .ok w m := by
  refine reads_of_ok ?_
  rw [GlobalBlock.get, h]

end Engine

end QuakeProgs
