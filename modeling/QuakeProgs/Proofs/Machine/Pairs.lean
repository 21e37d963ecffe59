/-
  File:      QuakeProgs/Proofs/Machine/Pairs.lean
  Subject:   TWO MACHINES SIDE BY SIDE: what code cannot tell apart.

  A machine carries more than its program can see: counters, a cache, the place of the last statement, a
  log. Two machines that differ in nothing else go through the same motions. Compared with itself, a
  machine shows what its own run keeps.

  * `Engine.Paired` -- one action on two machines ends the same way on both;
  * `Host.Alike` -- hosts that give the same answers from here on;
  * `Comparison`, `Comparison.Alike` -- the same machine, but for what the comparison leaves open;
  * `Durable`, `Lasting` -- what of a machine lasts while code runs;
  * `Engine.Uniform` -- an action that does the same to any two machines in a relation;
  * `Engine.Blind` -- an action that does the same to both, and whose failure nobody has reported yet.
-/
import QuakeProgs.Proofs.Machine.Outcome
import QuakeProgs.Proofs.Store.Batches
import QuakeProgs.Proofs.Strings.Regions

namespace QuakeProgs

/-! ## 1. One action on two machines. -/

namespace Engine

variable {α β : Type} {m₁ m₂ : Machine}

/-- **Both succeed**, with results and machines that satisfy `Q`, **or both fail with the same error** and
    leave machines that satisfy `E`. -/
inductive Paired (x₁ x₂ : Engine α) (m₁ m₂ : Machine) (Q : α → α → Machine → Machine → Prop)
    (E : Error → Machine → Machine → Prop) : Prop
  | ok {a₁ a₂ : α} {n₁ n₂ : Machine} :
      x₁ m₁ = .ok a₁ n₁ → x₂ m₂ = .ok a₂ n₂ → Q a₁ a₂ n₁ n₂ →
      Paired x₁ x₂ m₁ m₂ Q E
  | error {e : Error} {n₁ n₂ : Machine} : x₁ m₁ = .error e n₁ → x₂ m₂ = .error e n₂ → E e n₁ n₂ →
      Paired x₁ x₂ m₁ m₂ Q E

variable {Q : α → α → Machine → Machine → Prop} {E : Error → Machine → Machine → Prop}

theorem Paired.mono {x₁ x₂ : Engine α} {Q' : α → α → Machine → Machine → Prop}
    {E' : Error → Machine → Machine → Prop} (h : Paired x₁ x₂ m₁ m₂ Q E)
    (hQ : ∀ a₁ a₂ n₁ n₂, Q a₁ a₂ n₁ n₂ → Q' a₁ a₂ n₁ n₂)
    (hE : ∀ e n₁ n₂, E e n₁ n₂ → E' e n₁ n₂) :
    Paired x₁ x₂ m₁ m₂ Q' E' := by
  cases h with
  | ok h₁ h₂ q => exact .ok h₁ h₂ (hQ _ _ _ _ q)
  | error h₁ h₂ he => exact .error h₁ h₂ (hE _ _ _ he)

/-- What holds of a machine beside itself holds of the machine. -/
theorem Paired.ends {x : Engine α} {m : Machine} (h : Paired x x m m Q E) {P : α → Machine → Prop}
    {F : Error → Machine → Prop} (hP : ∀ a n, Q a a n n → P a n) (hF : ∀ e n, E e n n → F e n) :
    Ends x m P F := by
  refine ends_iff.mpr ⟨fun a n hx => ?_, fun e n hx => ?_⟩
  · cases h with
    | ok h₁ h₂ q =>
      cases hx.symm.trans h₁
      cases hx.symm.trans h₂
      exact hP _ _ q
    | error h₁ _ _ => cases hx.symm.trans h₁
  · cases h with
    | ok h₁ _ _ => cases hx.symm.trans h₁
    | error h₁ h₂ he =>
      cases hx.symm.trans h₁
      cases hx.symm.trans h₂
      exact hF _ _ he

/-- An action on a machine beside the same action on the same machine. -/
theorem Paired.of_ends {x : Engine α} {m : Machine} {P : α → Machine → Prop} {F : Error → Machine → Prop}
    (h : Ends x m P F) (hQ : ∀ a n, P a n → Q a a n n) (hE : ∀ e n, F e n → E e n n) :
    Paired x x m m Q E := by
  cases hx : x m with
  | ok a n => exact .ok hx hx (hQ a n (h.ok hx))
  | error e n => exact .error hx hx (hE e n (h.error hx))

theorem paired_pure {a₁ a₂ : α} (h : Q a₁ a₂ m₁ m₂) : Paired (pure a₁) (pure a₂) m₁ m₂ Q E :=
  .ok rfl rfl h

theorem paired_throw {e : Error} (h : E e m₁ m₂) : Paired (throw e) (throw e) m₁ m₂ Q E := .error rfl rfl h

theorem paired_get {Q : Machine → Machine → Machine → Machine → Prop} (h : Q m₁ m₂ m₁ m₂) :
    Paired get get m₁ m₂ Q E := .ok rfl rfl h

theorem paired_modify {f₁ f₂ : Machine → Machine} {Q : Unit → Unit → Machine → Machine → Prop}
    (h : Q () () (f₁ m₁) (f₂ m₂)) : Paired (modify f₁) (modify f₂) m₁ m₂ Q E := .ok rfl rfl h

theorem paired_bind {x₁ x₂ : Engine β} {f₁ f₂ : β → Engine α}
    (h : Paired x₁ x₂ m₁ m₂ (fun b₁ b₂ n₁ n₂ => Paired (f₁ b₁) (f₂ b₂) n₁ n₂ Q E) E) :
    Paired (x₁ >>= f₁) (x₂ >>= f₂) m₁ m₂ Q E := by
  cases h with
  | ok h₁ h₂ rest =>
    cases rest with
    | ok r₁ r₂ q => exact .ok ((bind_of_ok h₁).trans r₁) ((bind_of_ok h₂).trans r₂) q
    | error r₁ r₂ he => exact .error ((bind_of_ok h₁).trans r₁) ((bind_of_ok h₂).trans r₂) he
  | error h₁ h₂ he => exact .error (bind_of_error h₁) (bind_of_error h₂) he

theorem paired_reads {f : Machine → Except Error α} (same : f m₁ = f m₂)
    (hok : ∀ a, f m₁ = .ok a → Q a a m₁ m₂) (herr : ∀ e, f m₁ = .error e → E e m₁ m₂) :
    Paired (reads f) (reads f) m₁ m₂ Q E := by
  cases h : f m₁ with
  | ok a =>
    have h₁ : reads f m₁ = .ok a m₁ := by rw [reads, h]
    have h₂ : reads f m₂ = .ok a m₂ := by rw [reads, ← same, h]
    exact .ok h₁ h₂ (hok a h)
  | error e =>
    have h₁ : reads f m₁ = .error e m₁ := by rw [reads, h]
    have h₂ : reads f m₂ = .error e m₂ := by rw [reads, ← same, h]
    exact .error h₁ h₂ (herr e h)

theorem paired_update {check : Machine → Except Error α} {change : α → Machine → Machine}
    (same : check m₁ = check m₂) (hok : ∀ a, check m₁ = .ok a → Q a a (change a m₁) (change a m₂))
    (herr : ∀ e, check m₁ = .error e → E e m₁ m₂) :
    Paired (update check change) (update check change) m₁ m₂ Q E := by
  cases h : check m₁ with
  | ok a => exact .ok (update_of_ok h change) (update_of_ok (same ▸ h) change) (hok a h)
  | error e => exact .error (update_of_error h change) (update_of_error (same ▸ h) change) (herr e h)

theorem paired_attempt {x : Engine α} {Q : Except Error α → Except Error α → Machine → Machine → Prop}
    (h : Paired x x m₁ m₂ (fun a₁ a₂ => Q (.ok a₁) (.ok a₂)) fun e => Q (.error e) (.error e)) :
    Paired (attempt x) (attempt x) m₁ m₂ Q E := by
  cases h with
  | ok h₁ h₂ q =>
    refine .ok ?_ ?_ q
    · rw [attempt, h₁]
    · rw [attempt, h₂]
  | error h₁ h₂ he =>
    refine .ok ?_ ?_ he
    · rw [attempt, h₁]
    · rw [attempt, h₂]

end Engine

/-! ## 2. Machines that differ in what no program sees. -/

/-- A line of the trace goes to the log; no host hears it. -/
def Event.isTrace : Event → Bool
  | .trace _ => true
  | _ => false

/-- The text a host is given when an execution is aborted. -/
def Event.report? : Event → Option String
  | .report text => some text
  | _ => none

/-- The two were told the same; without `traced`, lines of the trace aside. -/
structure Told (traced : Prop) (es₁ es₂ : Array Event) : Prop where
  heard : es₁.toList.filter (!·.isTrace) = es₂.toList.filter (!·.isTrace)
  lines : traced → es₁ = es₂

theorem Told.refl (traced : Prop) (es : Array Event) : Told traced es es := ⟨rfl, fun _ => rfl⟩

theorem Told.append {traced : Prop} {es₁ es₂ ds₁ ds₂ : Array Event} (h : Told traced es₁ es₂)
    (h' : Told traced ds₁ ds₂) : Told traced (es₁ ++ ds₁) (es₂ ++ ds₂) where
  heard := by simp only [Array.toList_append, List.filter_append, h.heard, h'.heard]
  lines t := by rw [h.lines t, h'.lines t]

/-- **Hosts that give the same answers** from here on, as long as they are told the same. -/
def Host.Alike (traced : Prop) (h₁ h₂ : Host) : Prop :=
  ∀ es₁ es₂, Told traced es₁ es₂ → ∀ name,
    h₁.answer (h₁.events ++ es₁) name = h₂.answer (h₂.events ++ es₂) name

theorem Host.Alike.told {traced : Prop} {h₁ h₂ : Host} (h : h₁.Alike traced h₂) {es₁ es₂ : Array Event}
    (told : Told traced es₁ es₂) :
    Host.Alike traced { h₁ with events := h₁.events ++ es₁ } { h₂ with events := h₂.events ++ es₂ } := by
  intro ds₁ ds₂ more name
  dsimp only
  rw [Array.append_assoc, Array.append_assoc]
  exact h _ _ (told.append more) name

theorem Host.Alike.answer {traced : Prop} {h₁ h₂ : Host} (h : h₁.Alike traced h₂) (name : String) :
    h₁.answer h₁.events name = h₂.answer h₂.events name := by
  have now := h #[] #[] (.refl _ _) name
  rwa [Array.append_empty, Array.append_empty] at now

/-- The same return points. If `stale`, the outermost may differ in its statement: it waits for a run that
    came from outside, and belongs to no function. -/
def CallStack.Alike (stale : Prop) (s₁ s₂ : CallStack) : Prop :=
  s₁.frames = s₂.frames ∨ stale ∧ ∃ p₁ p₂ rest,
    s₁.frames.toList = { statement := p₁, function := 0 } :: rest ∧
    s₂.frames.toList = { statement := p₂, function := 0 } :: rest

namespace CallStack

variable {p q : Prop} {s₁ s₂ : CallStack}

theorem Alike.mono (h : s₁.Alike p s₂) (hpq : p → q) : s₁.Alike q s₂ := by
  rcases h with same | ⟨stale, differ⟩
  · exact .inl same
  · exact .inr ⟨hpq stale, differ⟩

/-- Stacks that are alike are the same once one of them is empty. -/
theorem Alike.eq_of_empty (h : s₁.Alike p s₂) (empty : s₁.frames = #[] ∨ s₂.frames = #[]) :
    s₁.frames = s₂.frames := by
  rcases h with same | ⟨-, p₁, p₂, rest, h₁, h₂⟩
  · exact same
  · rcases empty with empty | empty
    · rw [empty] at h₁
      cases h₁
    · rw [empty] at h₂
      cases h₂

end CallStack

/-- **What a comparison of two machines asks for**, and what it leaves open. -/
structure Comparison where
  /-- Holds of both. -/
  inv : Machine → Prop
  /-- They are one machine. -/
  same : Prop := False
  /-- Both write a trace, or neither does. -/
  traced : Prop
  /-- The count of arguments is the same. -/
  counted : Prop := True
  /-- The statement is the same, also while no function runs. -/
  placed : Prop := True
  /-- The depths at which the outermost return point may differ. -/
  stale : Nat → Prop := fun _ => False
  /-- The random numbers to come are the same. -/
  drawn : Prop := True
  /-- The entities may lie in other batches. -/
  scattered : Prop := False

/-- **The same machine, but for what the comparison leaves open.** Profile and cache may always differ. -/
structure Comparison.Alike (v : Comparison) (m₁ m₂ : Machine) : Prop where
  config : m₁.config = m₂.config
  program : m₁.program = m₂.program
  registry : m₁.registry = m₂.registry
  builtins : m₁.builtins = m₂.builtins
  hot : m₁.hot = m₂.hot
  phase : m₁.phase = m₂.phase
  legacy : m₁.legacy = m₂.legacy
  strings : m₁.strings = m₂.strings
  globals : m₁.globals = m₂.globals
  edicts : m₁.edicts.Alike v.scattered m₂.edicts
  random : v.drawn → m₁.random = m₂.random
  locals : m₁.locals = m₂.locals
  state : m₁.state = m₂.state
  current : m₁.current = m₂.current
  limit : m₁.calls.limit = m₂.calls.limit
  calls : m₁.calls.Alike (v.stale m₁.calls.depth) m₂.calls
  statement : v.placed ∨ m₁.current ≠ 0 → m₁.statement = m₂.statement
  argc : v.counted → m₁.argc = m₂.argc
  tracing : v.traced → m₁.tracing = m₂.tracing
  host : m₁.host.Alike v.traced m₂.host
  same : v.same → m₁ = m₂
  left : v.inv m₁
  right : v.inv m₂

/-- **What code keeps that only computes**: it changes words, registers and counters, calls the operations of
    the string table and of the store, and tells the host. -/
structure Durable (I : Machine → Prop) : Prop where
  data {m : Machine} {globals : GlobalBlock} {random : Random} {words : Array Word} {profile : Profile}
    {statement argc : Nat} {tracing : Bool} : I m →
    I { m with globals, random, profile, statement, argc, tracing, locals := { m.locals with words } }
  texts {m : Machine} (c : StringCommand) : I m → I { m with strings := m.strings.after c }
  store {m : Machine} (c : StoreCommand) : I m → I { m with edicts := m.edicts.after c }
  tell {m : Machine} {e : Event} : e.report? = none → I m → I (m.tell e)

/-- **What all code keeps**: besides, it enters functions and leaves them. -/
structure Lasting (I : Machine → Prop) : Prop extends Durable I where
  push {m : Machine} : I m →
    I { m with calls := m.calls.add { statement := m.statement, function := m.current } }
  enter {m : Machine} (f : FuncRef) : 0 < m.calls.depth → I m → I { m with current := f }
  pop {m : Machine} {frame : Frame} : m.calls.last = .ok frame → I m →
    I { m with calls := m.calls.dropLast, current := frame.function, statement := frame.statement }

namespace Comparison

variable {v : Comparison} {m₁ m₂ : Machine}

/-- Besides, the count of arguments is the same. -/
def counting (v : Comparison) : Comparison := { v with counted := True }

/-- Besides, both stand at the same statement. -/
def standing (v : Comparison) : Comparison := { v with placed := True }

/-- A machine beside itself, `I` being what is kept. -/
def single (I : Machine → Prop) : Comparison := { inv := I, same := True, traced := True }

theorem single_alike {I : Machine → Prop} {m : Machine} (h : I m) : (single I).Alike m m where
  config := rfl
  program := rfl
  registry := rfl
  builtins := rfl
  hot := rfl
  phase := rfl
  legacy := rfl
  strings := rfl
  globals := rfl
  edicts := .inl rfl
  random _ := rfl
  locals := rfl
  state := rfl
  current := rfl
  limit := rfl
  calls := .inl rfl
  statement _ := rfl
  argc _ := rfl
  tracing _ := rfl
  host es₁ es₂ told name := by rw [told.lines trivial]
  same _ := rfl
  left := h
  right := h

theorem Alike.view (h : v.Alike m₁ m₂) : m₁.view = m₂.view := by
  rw [Machine.view, h.program, h.strings, h.globals, Machine.view]

theorem Alike.time (h : v.Alike m₁ m₂) : m₁.time = m₂.time := by
  rw [Machine.time, h.globals, Machine.time]

theorem Alike.selfEdict (h : v.Alike m₁ m₂) : m₁.selfEdict = m₂.selfEdict := by
  rw [Machine.selfEdict, h.globals, Machine.selfEdict]

/-- The globals are replaced by the same in both. -/
theorem Alike.setGlobals (h : v.Alike m₁ m₂) (durable : Durable v.inv) {globals₁ globals₂ : GlobalBlock}
    (globals : globals₁ = globals₂) :
    v.Alike { m₁ with globals := globals₁ } { m₂ with globals := globals₂ } :=
  { h with
    globals
    same := fun s => by rw [h.same s, globals]
    left := durable.data h.left
    right := durable.data h.right }

/-- Both string tables take in a text. -/
theorem Alike.setTexts (h : v.Alike m₁ m₂) (durable : Durable v.inv) (c : StringCommand) :
    v.Alike { m₁ with strings := m₁.strings.after c } { m₂ with strings := m₂.strings.after c } :=
  { h with
    strings := by rw [h.strings]
    same := fun s => by rw [h.same s]
    left := durable.texts c h.left
    right := durable.texts c h.right }

/-- Both stores go through an operation. -/
theorem Alike.setStore (h : v.Alike m₁ m₂) (durable : Durable v.inv) (c : StoreCommand) :
    v.Alike { m₁ with edicts := m₁.edicts.after c } { m₂ with edicts := m₂.edicts.after c } :=
  { h with
    edicts := h.edicts.after c
    same := fun s => by rw [h.same s]
    left := durable.store c h.left
    right := durable.store c h.right }

/-- A number is drawn from both, or from neither. -/
theorem Alike.setRandom (h : v.Alike m₁ m₂) (durable : Durable v.inv) (f : Random → Random) :
    v.Alike { m₁ with random := f m₁.random } { m₂ with random := f m₂.random } :=
  { h with
    random := fun drawn => by rw [h.random drawn]
    same := fun s => by rw [h.same s]
    left := durable.data h.left
    right := durable.data h.right }

/-- The saved words are replaced by the same in both. -/
theorem Alike.setWords (h : v.Alike m₁ m₂) (durable : Durable v.inv) {words₁ words₂ : Array Word}
    (words : words₁ = words₂) :
    v.Alike { m₁ with locals := { m₁.locals with words := words₁ } }
      { m₂ with locals := { m₂.locals with words := words₂ } } :=
  { h with
    locals := by rw [h.locals, words]
    same := fun s => by rw [h.same s, words]
    left := durable.data h.left
    right := durable.data h.right }

/-- Both start a statement. -/
theorem Alike.moveTo (h : v.Alike m₁ m₂) (durable : Durable v.inv) (statement : Nat) :
    v.Alike { m₁ with statement } { m₂ with statement } :=
  { h with
    statement := fun _ => rfl
    same := fun s => by rw [h.same s]
    left := durable.data h.left
    right := durable.data h.right }

theorem Alike.setTracing (h : v.Alike m₁ m₂) (durable : Durable v.inv) (tracing : Bool) :
    v.Alike { m₁ with tracing } { m₂ with tracing } :=
  { h with
    tracing := fun _ => rfl
    same := fun s => by rw [h.same s]
    left := durable.data h.left
    right := durable.data h.right }

/-- The arguments of a call are counted. -/
theorem Alike.setArgc (h : v.Alike m₁ m₂) (durable : Durable v.inv) (argc : Nat) :
    v.counting.Alike { m₁ with argc } { m₂ with argc } :=
  { h with
    argc := fun _ => rfl
    same := fun s => by rw [h.same s]
    left := durable.data h.left
    right := durable.data h.right }

/-- Both count something. -/
theorem Alike.count (h : v.Alike m₁ m₂) (durable : Durable v.inv) (f : FuncRef → Profile → Profile) :
    v.Alike { m₁ with profile := f m₁.current m₁.profile } { m₂ with profile := f m₂.current m₂.profile } :=
  { h with
    same := fun s => by rw [h.same s]
    left := durable.data h.left
    right := durable.data h.right }

/-- Both hosts are told the same, as far as they hear it. -/
theorem Alike.told (h : v.Alike m₁ m₂) {es₁ es₂ : Array Event} (told : Told v.traced es₁ es₂)
    (same : v.same → es₁ = es₂)
    (left : v.inv { m₁ with host := { m₁.host with events := m₁.host.events ++ es₁ } })
    (right : v.inv { m₂ with host := { m₂.host with events := m₂.host.events ++ es₂ } }) :
    v.Alike { m₁ with host := { m₁.host with events := m₁.host.events ++ es₁ } }
      { m₂ with host := { m₂.host with events := m₂.host.events ++ es₂ } } :=
  { h with
    host := h.host.told told
    same := fun s => by rw [h.same s, same s]
    left, right }

theorem tell_eq (m : Machine) (e : Event) :
    m.tell e = { m with host := { m.host with events := m.host.events ++ #[e] } } := by
  rw [Array.append_singleton, Machine.tell]

theorem Alike.tell (h : v.Alike m₁ m₂) {e : Event} (left : v.inv (m₁.tell e)) (right : v.inv (m₂.tell e)) :
    v.Alike (m₁.tell e) (m₂.tell e) := by
  rw [tell_eq] at left right ⊢
  rw [tell_eq]
  exact h.told (.refl _ _) (fun _ => rfl) left right

end Comparison

/-! ## 3. Actions that do the same to both. -/

namespace Engine

section Uniform

variable {α β : Type} {R : Machine → Machine → Prop} {F : Error → Prop}

/-- **An action that does the same to two machines** that stand in the relation `R`: it gives the same result,
    or fails with the same error, which is one of `F`, and leaves machines that stand in the relation again. -/
def Uniform (R : Machine → Machine → Prop) (F : Error → Prop) (act : Engine α) : Prop :=
  ∀ m₁ m₂, R m₁ m₂ →
    Paired act act m₁ m₂ (fun a₁ a₂ n₁ n₂ => a₁ = a₂ ∧ R n₁ n₂) fun e n₁ n₂ => F e ∧ R n₁ n₂

theorem Uniform.mono {F' : Error → Prop} {act : Engine α} (h : Uniform R F act) (hF : ∀ e, F e → F' e) :
    Uniform R F' act :=
  fun m₁ m₂ hR => (h m₁ m₂ hR).mono (fun _ _ _ _ q => q) fun e _ _ he => ⟨hF e he.1, he.2⟩

theorem Uniform.pure (a : α) : Uniform R F (Pure.pure a) := fun _ _ h => paired_pure ⟨rfl, h⟩

/-- A uniform action, and then any other. -/
theorem Uniform.paired {x : Engine β} {f : β → Engine α} (hx : Uniform R F x) {m₁ m₂ : Machine} (h : R m₁ m₂)
    {Q : α → α → Machine → Machine → Prop} {E : Error → Machine → Machine → Prop}
    (hE : ∀ e n₁ n₂, F e → R n₁ n₂ → E e n₁ n₂)
    (hf : ∀ b n₁ n₂, R n₁ n₂ → Paired (f b) (f b) n₁ n₂ Q E) :
    Paired (x >>= f) (x >>= f) m₁ m₂ Q E := by
  refine paired_bind ((hx m₁ m₂ h).mono ?_ fun e n₁ n₂ he => hE e n₁ n₂ he.1 he.2)
  rintro b _ n₁ n₂ ⟨rfl, h'⟩
  exact hf b n₁ n₂ h'

theorem Uniform.bind {x : Engine β} {f : β → Engine α} (hx : Uniform R F x) (hf : ∀ b, Uniform R F (f b)) :
    Uniform R F (x >>= f) :=
  fun _ _ h => hx.paired h (fun _ _ _ he h' => ⟨he, h'⟩) hf

/-- An action that looks at a machine and sees the same in both. -/
theorem Uniform.get {f : Machine → Engine α} (same : ∀ m₁ m₂, R m₁ m₂ → f m₁ = f m₂)
    (hf : ∀ m, Uniform R F (f m)) : Uniform R F (MonadState.get >>= f) := by
  intro m₁ m₂ h
  refine paired_bind (paired_get ?_)
  rw [same m₁ m₂ h]
  exact hf m₂ m₁ m₂ h

theorem Uniform.fail {c : Cause} (h : F { cause := c }) : Uniform R F (Engine.fail c : Engine α) :=
  fun _ _ hR => paired_throw ⟨h, hR⟩

theorem Uniform.modify {f : Machine → Machine} (hf : ∀ m₁ m₂, R m₁ m₂ → R (f m₁) (f m₂)) :
    Uniform R F (modify f) :=
  fun m₁ m₂ h => paired_modify ⟨rfl, hf m₁ m₂ h⟩

theorem Uniform.reads {f : Machine → Except Error α} (same : ∀ m₁ m₂, R m₁ m₂ → f m₁ = f m₂)
    (failing : ∀ m e, f m = .error e → F e) : Uniform R F (reads f) :=
  fun m₁ m₂ h => paired_reads (same m₁ m₂ h) (fun _ _ => ⟨rfl, h⟩) fun e he => ⟨failing m₁ e he, h⟩

theorem Uniform.update {check : Machine → Except Error α} {change : α → Machine → Machine}
    (same : ∀ m₁ m₂, R m₁ m₂ → check m₁ = check m₂)
    (hc : ∀ a m₁ m₂, R m₁ m₂ → check m₁ = .ok a → check m₂ = .ok a → R (change a m₁) (change a m₂))
    (failing : ∀ m e, check m = .error e → F e) : Uniform R F (update check change) :=
  fun m₁ m₂ h => paired_update (same m₁ m₂ h) (fun a ha => ⟨rfl, hc a m₁ m₂ h ha (same m₁ m₂ h ▸ ha)⟩)
    fun e he => ⟨failing m₁ e he, h⟩

theorem Uniform.ite {c : Prop} [Decidable c] {x y : Engine α} (hx : Uniform R F x) (hy : Uniform R F y) :
    Uniform R F (if c then x else y) := by
  split
  · exact hx
  · exact hy

theorem Uniform.forIn {l : List β} {f : β → PUnit → Engine (ForInStep PUnit)}
    (hf : ∀ b u, Uniform R F (f b u)) (u : PUnit) : Uniform R F (forIn l u f) := by
  induction l generalizing u with
  | nil => exact .pure _
  | cons b l ih =>
    rw [List.forIn_cons]
    refine (hf b u).bind fun step => ?_
    cases step with
    | done u' => exact .pure _
    | yield u' => exact ih u'

end Uniform

end Engine

/-- A failure that nobody has reported yet. -/
def Unreported {α : Type} (x : Except Error α) : Prop := ∀ e, x = .error e → e.context = none

namespace Engine

variable {α β : Type} {v : Comparison}

/-- **An action that cannot tell two machines apart**: it gives the same result, or fails with the same
    error, which nobody has reported yet, and leaves machines that are alike again. -/
def Blind (v : Comparison) (act : Engine α) : Prop :=
  ∀ m₁ m₂, v.Alike m₁ m₂ → Paired act act m₁ m₂ (fun a₁ a₂ n₁ n₂ => a₁ = a₂ ∧ v.Alike n₁ n₂)
    fun e n₁ n₂ => e.context = none ∧ v.Alike n₁ n₂

theorem Blind.pure (a : α) : Blind v (Pure.pure a) := Uniform.pure a

theorem Blind.bind {x : Engine β} {f : β → Engine α} (hx : Blind v x) (hf : ∀ b, Blind v (f b)) :
    Blind v (x >>= f) := Uniform.bind hx hf

/-- What a blind action keeps. -/
theorem Blind.ends {I : Machine → Prop} {act : Engine α} (h : Blind (.single I) act) {m : Machine} (hm : I m) :
    Ends act m (fun _ m' => I m') fun e m' => e.context = none ∧ I m' :=
  (h m m (Comparison.single_alike hm)).ends (fun _ _ ha => ha.2.left) fun _ _ he => ⟨he.1, he.2.left⟩

/-- A blind action, and then any other. -/
theorem Blind.paired {x : Engine β} {f : β → Engine α} (hx : Blind v x) {m₁ m₂ : Machine} (h : v.Alike m₁ m₂)
    {Q : α → α → Machine → Machine → Prop} {E : Error → Machine → Machine → Prop}
    (hE : ∀ e n₁ n₂, e.context = none → v.Alike n₁ n₂ → E e n₁ n₂)
    (hf : ∀ b n₁ n₂, v.Alike n₁ n₂ → Paired (f b) (f b) n₁ n₂ Q E) :
    Paired (x >>= f) (x >>= f) m₁ m₂ Q E := Uniform.paired hx h hE hf

/-- An action that looks at a machine and sees the same in both. -/
theorem Blind.get {f : Machine → Engine α} (same : ∀ m₁ m₂, v.Alike m₁ m₂ → f m₁ = f m₂)
    (hf : ∀ m, Blind v (f m)) : Blind v (MonadState.get >>= f) := Uniform.get same hf

theorem Blind.fail (c : Cause) : Blind v (Engine.fail c : Engine α) := Uniform.fail rfl

theorem Blind.modify {f : Machine → Machine} (hf : ∀ m₁ m₂, v.Alike m₁ m₂ → v.Alike (f m₁) (f m₂)) :
    Blind v (modify f) := Uniform.modify hf

theorem Blind.reads {f : Machine → Except Error α} (same : ∀ m₁ m₂, v.Alike m₁ m₂ → f m₁ = f m₂)
    (unreported : ∀ m, Unreported (f m)) : Blind v (reads f) := Uniform.reads same unreported

theorem Blind.update {check : Machine → Except Error α} {change : α → Machine → Machine}
    (same : ∀ m₁ m₂, v.Alike m₁ m₂ → check m₁ = check m₂)
    (hc : ∀ a m₁ m₂, v.Alike m₁ m₂ → check m₁ = .ok a → check m₂ = .ok a →
      v.Alike (change a m₁) (change a m₂))
    (unreported : ∀ m, Unreported (check m)) : Blind v (update check change) :=
  Uniform.update same hc unreported

end Engine

end QuakeProgs
