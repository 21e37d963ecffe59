/-
  File:      QuakeProgs/Proofs/Machine/Assembly.lean
  Subject:   WHAT LASTS: properties that code, commands and executions keep, in every machine there can be.

  Code and commands change the strings and the entities of a machine through the operations of the string
  table and of the store, and through nothing else. So whatever these operations keep holds of every machine.

  * `Engine.Maintains` -- an action that keeps a property; `Engine.run_maintains`, for what all code keeps;
  * `Abiding` -- a property that code, commands and executions keep; `Enduring` -- one that fresh machines have;
  * `Reachable.endures` -- it holds of every machine that can be reached, in the middle of a run too;
  * `Machine.Assembled`, `Reachable.assembled` -- strings and entities came about by operations.
-/
import QuakeProgs.Proofs.Image.Acceptance
import QuakeProgs.Proofs.Machine.Lockstep
import QuakeProgs.Proofs.Machine.Resting

namespace QuakeProgs

open Engine

/-! ## 1. Actions that keep a property. -/

namespace Engine

variable {α β : Type} {I : Machine → Prop} {dispatch : Native → Engine Unit}

/-- **An action that keeps a property**, whether it succeeds or fails. -/
def Maintains (I : Machine → Prop) (act : Engine α) : Prop :=
  ∀ m, I m → Ends act m (fun _ m' => I m') fun _ m' => I m'

theorem Maintains.pure (a : α) : Maintains I (Pure.pure a) := fun _ h => h

theorem Maintains.bind {x : Engine β} {f : β → Engine α} (hx : Maintains I x) (hf : ∀ b, Maintains I (f b)) :
    Maintains I (x >>= f) :=
  fun m h => ends_bind ((hx m h).mono (fun b m' h' => hf b m' h') fun _ _ h' => h')

theorem Maintains.fail (c : Cause) : Maintains I (Engine.fail c : Engine α) := fun _ h => h

theorem Maintains.reads (f : Machine → Except Error α) : Maintains I (reads f) :=
  fun _ h => ends_reads (fun _ _ => h) fun _ _ => h

/-- What code keeps that only computes. -/
theorem Maintains.of_blind {act : Engine α} (h : Blind (.single I) act) : Maintains I act :=
  fun _ hm => (h.ends hm).mono (fun _ _ h => h) fun _ _ h => h.2

/-- Builtins that keep a property, beside themselves. -/
theorem served_of_maintains (served : ∀ native, Maintains I (dispatch native)) (stale : Nat → Prop) :
    Served ((Comparison.single I).within stale) dispatch
      fun _ => ((Comparison.single I).within fun _ => True).Alike := by
  intro b m₁ m₂ _ h
  obtain rfl := h.same trivial
  exact .of_ends (served b.code m₁ h.left) (fun _ _ h => Comparison.within_alike h _)
    fun _ _ h => Comparison.within_alike h _

variable (lasting : Lasting I) (served : ∀ native, Maintains I (dispatch native))
include lasting served

/-- A turn of the loop. -/
theorem cycle_maintains (pc : Nat) : Maintains I (cycle dispatch pc) := by
  intro m h
  have alike := Comparison.within_alike h fun _ => False
  refine (cycle_paired lasting (fun _ _ _ _ h => { h with calls := h.calls.mono False.elim }) trivial (fun _ => id)
    (served_of_maintains served _) alike pc).ends ?_ fun _ _ h => h.left
  intro flow m' turns
  cases turns with
  | next h => exact h.left
  | jump h => exact (h m'.statement).left
  | returned returns =>
    rcases returns with ⟨-, h⟩ | ⟨-, -, h⟩
    · exact h.left
    · exact h.left

/-- **A run keeps what all code and every builtin keeps.** -/
theorem run_maintains (f : FuncRef) : Maintains I (run dispatch f) := fun _ h =>
  (run_paired lasting id (Comparison.within_alike h fun _ => False) (fun _ _ _ _ h => h)
    (fun stale _ => served_of_maintains served stale) f).ends (fun _ _ h => h.left) fun _ _ h => h.left

/-- **So do the machines in the middle of it.** -/
theorem maintained_of_visits {f : FuncRef} {m₀ m : Machine} {opened : List Opened}
    (h : Visits dispatch f m₀ opened m) (h₀ : I m₀) : I m := by
  induction h with
  | @entered entry m hentry =>
    have alike := Comparison.within_alike h₀ fun _ => False
    have paired := enter_paired lasting alike (alike.pushed trivial) f
    have ends : Ends (enter f) m₀ (fun entry m => I (m.moveTo entry)) fun _ _ => True :=
      paired.ends (fun entry _ h => (h.2.2 entry).left) fun _ _ _ => trivial
    exact ends.ok hentry
  | next _ hc ih => exact lasting.data ((cycle_maintains lasting served _ _ ih).ok hc)
  | jumped _ hc _ ih => exact lasting.data ((cycle_maintains lasting served _ _ ih).ok hc)
  | called _ hc _ ih => exact lasting.data ((cycle_maintains lasting served _ _ ih).ok hc)
  | returned _ hc _ ih => exact lasting.data ((cycle_maintains lasting served _ _ ih).ok hc)

end Engine

/-! ## 2. What everything keeps. -/

/-- **A property that everything keeps short of another image**: all code, every other command, and starting and
    aborting an execution. The stacks keep their room. -/
structure Abiding (I : Machine → Prop) : Prop extends Lasting I where
  serviced {m m' : Machine} : I m → m.Serviced m' → I m'
  control {m : Machine} {host : Host} {frames : Array Frame} {words : Array Word} {current : FuncRef}
    {statement argc : Nat} {state : ExecState} {profile : Profile} : I m →
    I { m with
      host, current, statement, argc, state, profile
      calls := { m.calls with frames }
      locals := { m.locals with words } }

/-- **A property of fresh machines that everything keeps**, starting over with another image included. -/
structure Enduring (I : Machine → Prop) : Prop extends Abiding I where
  fresh {bytes : Bytes} {options : LoadOptions} {image : Image} (config : Config) (registry : Registry) :
    Image.load bytes options = .ok image → I (.new image config registry)
  rebuilt {m m' : Machine} : I m → m.Rebuilt m' → I m'

section Enduring

variable {I : Machine → Prop}

/-- **Every command keeps it.** -/
theorem Command.perform_maintains (enduring : Enduring I) (c : Command) : Maintains I c.perform := by
  intro m h
  refine (c.perform_serves m).mono ?_ fun _ _ serviced => enduring.serviced h serviced
  rintro _ m' (serviced | rebuilt)
  · exact enduring.serviced h serviced
  · exact enduring.rebuilt h rebuilt

/-- **An execution keeps it**, if every builtin does. -/
theorem Engine.execute_maintains (abiding : Abiding I) {dispatch : Native → Engine Unit}
    (served : ∀ native, Maintains I (dispatch native)) (f : FuncRef) : Maintains I (execute dispatch f) := by
  intro m h
  have ran := run_maintains abiding.toLasting served f m.started (abiding.control h)
  refine (execute_outcome dispatch f m).mono ?_ ?_
  · rintro _ _ ⟨m₁, done, rfl⟩
    exact abiding.control (ran.ok done)
  · rintro _ _ ⟨e₁, m₁, m₂, broke, reported, rfl⟩
    obtain ⟨-, host, rfl⟩ := (report_ends e₁ m₁).ok reported
    have told : I { m₁ with host } := abiding.control (ran.error broke)
    exact abiding.control told

/-- **A builtin of the host that keeps a property** by its own actions. -/
def Routine.Keeps (I : Machine → Prop) : Routine → Prop
  | .finish act => Maintains I act
  | .exec target next => Maintains I target ∧ ∀ outcome, (next outcome).Keeps I
  | .look next => ∀ m, (next m).Keeps I

theorem Routine.Keeps.run {exec : FuncRef → Engine Unit} (hexec : ∀ f, Maintains I (exec f)) (r : Routine)
    (h : r.Keeps I) : Maintains I (r.run exec) := by
  induction r with
  | finish act => exact h
  | exec target next ih =>
    obtain ⟨htarget, hnext⟩ := h
    refine htarget.bind fun f m kept => ?_
    exact ends_bind (ends_attempt ((hexec f m kept).mono (fun _ m' h => ih _ (hnext _) m' h)
      fun _ m' h => ih _ (hnext _) m' h))
  | look next ih => exact fun m hm => ih m (h m) m hm

/-- **All builtins keep it**, executions being nested to any depth. -/
theorem Dispatch.link_maintains (abiding : Abiding I) {routines : Nat → Routine}
    (host : ∀ key, (routines key).Keeps I) (nesting : Nat) (native : Native) :
    Maintains I (link routines nesting native) := by
  have own : ∀ b, Maintains I (core b) := fun b =>
    .of_blind (core_blind abiding.toDurable trivial b (.inl trivial))
  induction nesting generalizing native with
  | zero =>
    cases native with
    | core b => exact own b
    | hosted key => exact .fail _
  | succ nesting ih =>
    cases native with
    | core b => exact own b
    | hosted key => exact Routine.Keeps.run (execute_maintains abiding ih) _ (host key)

/-- **It holds of every machine that can be reached.** -/
theorem Reachable.endures (enduring : Enduring I) {routines : Nat → Routine} {registry : Registry} {m : Machine}
    (host : ∀ key, (routines key).Keeps I) (h : Reachable routines registry m) : I m := by
  induction h with
  | fresh config loaded => exact enduring.fresh config registry loaded
  | command c _ after ih => exact Ends.after (c.perform_maintains enduring _ ih) after
  | executed nesting f _ after ih =>
    have served := Dispatch.link_maintains enduring.toAbiding host nesting
    exact Ends.after (execute_maintains enduring.toAbiding served f _ ih) after
  | begun _ ih => exact enduring.control ih
  | within nesting _ visits ih =>
    have served := Dispatch.link_maintains enduring.toAbiding host nesting
    exact maintained_of_visits enduring.toLasting served visits (enduring.control ih)
  | underway _ _ _ _ _ ih => exact enduring.control ih

end Enduring

/-! ## 3. Strings and entities. -/

/-- **Strings and entities came about by operations** on fresh ones. Nothing is asked of the rest. -/
structure Machine.Assembled (m : Machine) : Prop where
  edicts : ∃ fieldWords config, ∃ cs : List StoreCommand,
    m.edicts = cs.foldl EdictStore.after (.new fieldWords config)
  strings : m.strings.Made

/-- A machine that has just been given an image is assembled. -/
theorem Machine.assembled_new {bytes : Bytes} {options : LoadOptions} {image : Image}
    (loaded : Image.load bytes options = .ok image) (config : Config) (registry : Registry) :
    (new image config registry).Assembled := by
  obtain ⟨blob, made⟩ := (Image.load_checked loaded).strings
  refine ⟨⟨_, _, [], rfl⟩, ?_⟩
  show image.strings.Made
  rw [made]
  exact .fresh _ _ _ _

theorem Machine.enduring_assembled : Enduring Machine.Assembled where
  data h := { h with }
  texts c h := ⟨h.edicts, .call c h.strings⟩
  store {m} c h := by
    obtain ⟨⟨fieldWords, config, cs, made⟩, strings⟩ := h
    exact ⟨⟨fieldWords, config, cs ++ [c], by rw [List.foldl_append, ← made]; rfl⟩, strings⟩
  tell _ h := { h with }
  push h := { h with }
  enter _ _ h := { h with }
  pop _ h := { h with }
  fresh config registry loaded := assembled_new loaded config registry
  rebuilt {m _} _ rebuilt := by
    obtain ⟨-, _, _, _, loaded, rfl⟩ := rebuilt
    exact { assembled_new loaded m.config m.registry with }
  serviced h s := by
    obtain ⟨⟨fieldWords, config, cs, made⟩, strings⟩ := h
    obtain ⟨cs', made'⟩ := s.edicts
    exact ⟨⟨fieldWords, config, cs ++ cs', by rw [List.foldl_append, ← made, made']⟩, s.strings strings⟩
  control h := { h with }

/-- **A builtin of the host that keeps strings and entities assembled** by its own actions; any command does. -/
abbrev Routine.Assembles : Routine → Prop := Routine.Keeps Machine.Assembled

/-- **Every machine that can be reached is assembled.** -/
theorem Reachable.assembled {routines : Nat → Routine} {registry : Registry} {m : Machine}
    (host : ∀ key, (routines key).Assembles) (h : Reachable routines registry m) : m.Assembled :=
  h.endures Machine.enduring_assembled host

end QuakeProgs
