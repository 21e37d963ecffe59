/-
  File:      QuakeProgs/Proofs/Machine/Replacement.lean
  Subject:   STARTING OVER WITH ANOTHER IMAGE is as good as starting with it.

  A machine that is given another image keeps its configuration, its builtins, its host, the trace switch and the
  random source. All else is made anew, one component after the other and in place. The stacks are only emptied:
  they are those of a new machine because nothing that ever happens to a machine changes their room.

  * `Engine.chronicle` -- what comes of a sequence of actions, each of which may fail;
  * `HostAct`, `Machine.chronicle` -- what a host does to a machine, and what comes of a sequence of it;
  * `Machine.Sized` -- the stacks have the room of the configuration: the invariant;
  * `Machine.anew` -- a new machine that was given the host, the trace switch and the random source of another;
  * `Reachable.replaced_as_new` -- at rest a replacement leaves just that machine, and so all that follows is the
    same; in the middle of a run it fails and changes nothing.
-/
import QuakeProgs.Proofs.Machine.Removals

namespace QuakeProgs

open Engine

/-! ## 1. What a host does. -/

/-- **What comes of some actions**, one after the other: how each ends, and the machine that it leaves. An action
    that fails does not keep the next from being taken. -/
def Engine.chronicle {α : Type} : List (Engine α) → Machine → List (Except Error α × Machine)
  | [], _ => []
  | act :: acts, m =>
    match act m with
    | .ok a m' => (.ok a, m') :: chronicle acts m'
    | .error e m' => (.error e, m') :: chronicle acts m'

theorem Engine.chronicle_of_ok {α : Type} {act : Engine α} {m m' : Machine} {a : α} (h : act m = .ok a m')
    (acts : List (Engine α)) : chronicle (act :: acts) m = (.ok a, m') :: chronicle acts m' := by
  rw [chronicle, h]

theorem Engine.chronicle_of_error {α : Type} {act : Engine α} {m m' : Machine} {e : Error} (h : act m = .error e m')
    (acts : List (Engine α)) : chronicle (act :: acts) m = (.error e, m') :: chronicle acts m' := by
  rw [chronicle, h]

/-- An act of the host: it gives a command, or executes a function. -/
inductive HostAct where
  | command (c : Command)
  | execute (f : FuncRef)

def HostAct.perform (dispatch : Native → Engine Unit) : HostAct → Engine Unit
  | .command c => c.perform
  | .execute f => Engine.execute dispatch f

/-- What comes of some acts of the host. -/
def Machine.chronicle (dispatch : Native → Engine Unit) (acts : List HostAct) (m : Machine) :
    List (Except Error Unit × Machine) :=
  Engine.chronicle (acts.map (HostAct.perform dispatch)) m

/-! ## 2. The room of the stacks. -/

namespace Machine

/-- **The stacks have the room that the configuration gives them.** -/
structure Sized (m : Machine) : Prop where
  limit : m.calls.limit = m.config.maxDepth
  capacity : m.locals.capacity = m.config.localWords

theorem sized_new (image : Image) (config : Config) (registry : Registry) : (new image config registry).Sized :=
  ⟨rfl, rfl⟩

/-- Nothing changes the room of the stacks. -/
theorem enduring_sized : Enduring Sized where
  data h := { h with }
  texts _ h := { h with }
  store _ h := { h with }
  tell _ h := { h with }
  push h := { h with }
  enter _ _ h := { h with }
  pop _ h := { h with }
  fresh config registry _ := sized_new _ config registry
  rebuilt h rebuilt := by
    obtain ⟨-, _, _, _, -, rfl⟩ := rebuilt
    exact ⟨h.limit, h.capacity⟩
  serviced h s := ⟨by rw [s.calls, s.config, h.limit], by rw [s.locals, s.config, h.capacity]⟩
  control h := { h with }

/-! ## 3. Starting over. -/

/-- A new machine with the configuration and the builtins of another, which was given its host, its trace switch
    and its random source as well. -/
def anew (m : Machine) (image : Image) : Machine :=
  { new image m.config m.registry with host := m.host, tracing := m.tracing, random := m.random }

variable {m : Machine}

/-- **A replacement at rest**, component by component: the stacks are all that is taken over. -/
theorem Sized.replaceProgram_eq (sized : m.Sized) (rest : m.state ≠ .running) (image : Image) :
    m.replaceProgram image = .ok (m.anew image) := by
  have calls : m.calls.clear = { limit := m.config.maxDepth } := by rw [CallStack.clear, sized.limit]
  have locals : m.locals.clear = { capacity := m.config.localWords } := by rw [LocalStack.clear, sized.capacity]
  rw [replaceProgram, if_neg rest, calls, locals]
  rfl

theorem replaceProgram_of_running (running : m.state = .running) (image : Image) :
    m.replaceProgram image = .error (Cause.internal "cannot replace the program while executing") := by
  rw [replaceProgram, if_pos running]

end Machine

namespace Command

variable {m m' : Machine} {bytes : Bytes} {options : LoadOptions} {image : Image}

theorem replace_eq_ok (loaded : Image.load bytes options = .ok image) (replaced : m.replaceProgram image = .ok m') :
    (Command.replace bytes options).perform m = .ok () m' := by
  have checked : (do m.replaceProgram (← Image.load bytes options)) = .ok m' := by
    rw [loaded]
    exact replaced
  exact bind_of_ok (update_of_ok checked fun m' _ => m')

theorem replace_eq_error {e : Error} (loaded : Image.load bytes options = .ok image)
    (refused : m.replaceProgram image = .error e) : (Command.replace bytes options).perform m = .error e m := by
  have checked : (do m.replaceProgram (← Image.load bytes options)) = .error e := by
    rw [loaded]
    exact refused
  exact bind_of_error (update_of_error checked fun m' _ => m')

end Command

/-- **Replacing the program is as good as starting over**, whatever has happened to the machine, also where
    builtins of the host do what they like, as long as they leave the room of the stacks alone. At rest the machine
    becomes, in all its components, a new one that was given the same host, trace switch and random source; so
    whatever the host does from then on, each of its acts ends in the same way and leaves the same machine. In the
    middle of a run the replacement fails and the machine stays as it is. -/
theorem Reachable.replaced_as_new {routines : Nat → Routine} {registry : Registry} {m : Machine}
    (host : ∀ key, (routines key).Keeps Machine.Sized) (reached : Reachable routines registry m) (image : Image) :
    (m.state ≠ .running → m.replaceProgram image = .ok (m.anew image) ∧
      ∀ bytes options, Image.load bytes options = .ok image →
        ∀ (dispatch : Native → Engine Unit) (acts : List HostAct),
        m.chronicle dispatch (.command (.replace bytes options) :: acts) =
          (.ok (), m.anew image) :: (m.anew image).chronicle dispatch acts) ∧
    (m.state = .running → ∃ e : Error, m.replaceProgram image = .error e ∧
      ∀ bytes options, Image.load bytes options = .ok image →
        ∀ (dispatch : Native → Engine Unit) (acts : List HostAct),
        m.chronicle dispatch (.command (.replace bytes options) :: acts) =
          (.error e, m) :: m.chronicle dispatch acts) := by
  have sized : m.Sized := reached.endures Machine.enduring_sized host
  constructor
  · intro rest
    have replaced := sized.replaceProgram_eq rest image
    refine ⟨replaced, fun bytes options loaded dispatch acts => ?_⟩
    exact chronicle_of_ok (Command.replace_eq_ok loaded replaced) _
  · intro running
    have refused := Machine.replaceProgram_of_running running image
    refine ⟨_, refused, fun bytes options loaded dispatch acts => ?_⟩
    exact chronicle_of_error (Command.replace_eq_error loaded refused) _

/-- A machine that has run a function, which freed an entity, is given another image; while that function is still
    running, it is refused. -/
theorem Reachable.replaced_as_new_removing : ∃ m image, Reachable default .core m ∧
    (m.state = .idle ∧ m.profile.total = 2 ∧ m.argc = 1 ∧ m.host.events.size = 1 ∧ m.phase = .active) ∧
    m.replaceProgram image = .ok (m.anew image) ∧ ∃ e, m.started.replaceProgram image = .error e := by
  have host : ∀ key, ((default : Nat → Routine) key).Keeps Machine.Sized := fun _ => Maintains.pure ()
  have loads : Machine.Loads (removing 3).build .small .fourEntities .core fun m =>
      Ends (execute (Dispatch.link default 0) 1) { m with phase := .active }
        (fun _ m' => m'.state = .idle ∧ m'.profile.total = 2 ∧ m'.argc = 1 ∧ m'.host.events.size = 1 ∧
          m'.phase = .active) fun _ _ => False := by
    decide +kernel
  obtain ⟨image, loaded, unnamed, ran⟩ := loads
  rw [Machine.new_of_unnamed unnamed] at ran
  obtain ⟨_, m, done, used⟩ := ran.exists_ok
  have active : Reachable default .core { Machine.new image .fourEntities .core with phase := .active } :=
    .command (.setPhase .active) (.fresh _ loaded) (.inl ⟨(), rfl⟩)
  have reached : Reachable default .core m := .executed 0 1 active (.inl ⟨_, done⟩)
  have rest : m.state ≠ .running := by
    rw [used.1]
    nofun
  have replaced := (reached.replaced_as_new host image).1 rest
  obtain ⟨e, refused, -⟩ := (reached.begun.replaced_as_new host image).2 rfl
  exact ⟨m, image, reached, used, replaced.1, e, refused⟩

end QuakeProgs
