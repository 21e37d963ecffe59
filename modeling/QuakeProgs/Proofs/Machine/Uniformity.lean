/-
  File:      QuakeProgs/Proofs/Machine/Uniformity.lean
  Subject:   WHAT BUILTINS AND STATEMENTS SEE OF A MACHINE, AND WHAT THEY CHANGE.

  An action reads the program, the globals, the entities and the strings, asks the host, and draws numbers. It
  sees neither counters nor the cache, nor the stacks and their limits, nor where a statement stands, nor the
  trace, nor in which batch an entity lies. So it does the same to any two machines that show it the same, and
  keeps whatever relation between them it cannot disturb.

  * `Cause.isLimit`, `Error.Plain` -- the failures that the limits of a machine have to do with, and the others;
  * `SeenAlike`, `KeptAlike` -- relations between machines that show code the same, and that code keeps;
  * `Engine.core_steady` -- every builtin of the engine does the same to both; only the ones that join their
    arguments look at how many there are, and only one draws;
  * `Engine.compute_steady` -- so does every statement that computes;
  * `Machine.OnlyData`, `Engine.onlyData_of_steady` -- compared with itself, a machine shows what they leave alone.
-/
import QuakeProgs.Proofs.Machine.Pairs

namespace QuakeProgs

/-! ## 1. Failures. -/

/-- A limit of the machine was met: of return points, of saved words or of statements. -/
def Cause.isLimit : Cause → Bool
  | .stackOverflow _ | .localStackOverflow .. | .runawayLoop _ => true
  | _ => false

/-- **A plain error**: nobody has reported it yet, and no limit was met. -/
structure Error.Plain (e : Error) : Prop where
  context : e.context = none
  cause : e.cause.isLimit = false

/-- A check that fails with plain errors only. -/
def PlainlyFails {α : Type} (x : Except Error α) : Prop := ∀ e, x = .error e → e.Plain

section PlainlyFails

variable {α β : Type}

theorem PlainlyFails.ok (a : α) : PlainlyFails (.ok a : Except Error α) := nofun

theorem PlainlyFails.cause {c : Cause} (h : c.isLimit = false) :
    PlainlyFails (.error { cause := c } : Except Error α) := by
  intro e he
  cases he
  exact ⟨rfl, h⟩

theorem PlainlyFails.bind {x : Except Error α} {f : α → Except Error β} (hx : PlainlyFails x)
    (hf : ∀ a, PlainlyFails (f a)) : PlainlyFails (x >>= f) := by
  cases x with
  | ok a => exact hf a
  | error e =>
    intro e' he
    cases he
    exact hx e rfl

theorem PlainlyFails.map {x : Except Error α} (hx : PlainlyFails x) (f : α → β) : PlainlyFails (x.map f) := by
  cases x with
  | ok a => exact .ok (f a)
  | error e =>
    intro e' he
    cases he
    exact hx e rfl

theorem PlainlyFails.ite {c : Prop} [Decidable c] {x y : Except Error α} (hx : PlainlyFails x)
    (hy : PlainlyFails y) : PlainlyFails (if c then x else y) := by
  split
  · exact hx
  · exact hy

namespace GlobalBlock

variable (g : GlobalBlock) (ofs n : Nat)

theorem get_plain : PlainlyFails (g.get ofs) := by
  unfold get
  split
  · exact .ok _
  · exact .cause rfl

theorem slice_plain : PlainlyFails (g.slice ofs n) := by
  unfold slice
  split
  · exact .ok _
  · exact .cause rfl

theorem check_plain : PlainlyFails (g.check ofs n) := .ite (.ok _) (.cause rfl)

end GlobalBlock

namespace EdictStore

variable (s : EdictStore) (id : EdictId)

theorem get_plain : PlainlyFails (s.get id) := by
  unfold get
  split
  · exact .ok _
  · exact .cause rfl

theorem words_plain (ofs n : Nat) : PlainlyFails (do (← s.get id).words ofs n) := by
  refine (s.get_plain id).bind fun e => ?_
  unfold Edict.words
  split
  · exact .ok _
  · exact .cause rfl

theorem checkWrite_plain (ofs n : Nat) : PlainlyFails (s.checkWrite id ofs n) :=
  (s.get_plain id).bind fun _ => .ite (.ok _) (.cause rfl)

theorem vacancy_plain (time : Single) : PlainlyFails (s.vacancy time) := by
  unfold vacancy
  split
  · exact .ok _
  · exact .ite (.cause rfl) (.ok _)

theorem checkRelease_plain : PlainlyFails (s.checkRelease id) :=
  .ite (.cause rfl) ((s.get_plain id).bind fun _ => .ok _)

end EdictStore

namespace StringTable

variable (t : StringTable)

theorem get_plain (r : StringRef) : PlainlyFails (t.get r) := .ite (.ok _) (.cause rfl)

theorem keptRef_plain (s : Bytes) : PlainlyFails (t.keptRef s) := by
  unfold keptRef
  dsimp only
  split
  · exact .ok _
  · exact .ite (.cause rfl) (.ok _)

theorem tempRef_plain (s : Bytes) : PlainlyFails (t.tempRef s) :=
  .ite (t.keptRef_plain s) (.ite (.cause rfl) (.ok _))

theorem compare_plain (a b : StringRef) : PlainlyFails (t.compare a b) :=
  (t.get_plain a).bind fun _ => (t.get_plain b).bind fun _ => .ok _

end StringTable

theorem FieldPointer.encode_plain (p : FieldPointer) (fieldWords : Nat) :
    PlainlyFails (p.encode fieldWords) := .ite (.cause rfl) (.ite (.ok _) (.cause rfl))

theorem FieldPointer.decode_plain (ptr : Word) (fieldWords count : Nat) :
    PlainlyFails (FieldPointer.decode ptr fieldWords count) := .ite (.cause rfl) (.ok _)

theorem BuiltinTable.lookup_plain (t : BuiltinTable) (number : Nat) : PlainlyFails (t.lookup number) := by
  unfold lookup
  split
  · exact .ok _
  · exact .cause rfl

theorem CallStack.last_plain (s : CallStack) : PlainlyFails s.last := by
  unfold last
  split
  · exact .ok _
  · exact .cause rfl

theorem LocalStack.last_plain (s : LocalStack) (n : Nat) : PlainlyFails (s.last n) := .ite (.cause rfl) (.ok _)

end PlainlyFails

/-! ## 2. Relations that code cannot disturb. -/

/-- **What code looks at is the same in both machines.** -/
structure SeenAlike (R : Machine → Machine → Prop) : Prop where
  program {m₁ m₂ : Machine} : R m₁ m₂ → m₁.program = m₂.program
  registry {m₁ m₂ : Machine} : R m₁ m₂ → m₁.registry = m₂.registry
  builtins {m₁ m₂ : Machine} : R m₁ m₂ → m₁.builtins = m₂.builtins
  hot {m₁ m₂ : Machine} : R m₁ m₂ → m₁.hot = m₂.hot
  phase {m₁ m₂ : Machine} : R m₁ m₂ → m₁.phase = m₂.phase
  legacy {m₁ m₂ : Machine} : R m₁ m₂ → m₁.legacy = m₂.legacy
  current {m₁ m₂ : Machine} : R m₁ m₂ → m₁.current = m₂.current
  strings {m₁ m₂ : Machine} : R m₁ m₂ → m₁.strings = m₂.strings
  globals {m₁ m₂ : Machine} : R m₁ m₂ → m₁.globals = m₂.globals
  edicts {m₁ m₂ : Machine} : R m₁ m₂ → m₁.edicts.Alike True m₂.edicts
  answer {m₁ m₂ : Machine} : R m₁ m₂ → ∀ name,
    m₁.host.answer m₁.host.events name = m₂.host.answer m₂.host.events name

/-- **And code keeps it so**: whatever it does to one of the two, it does to the other. -/
structure KeptAlike (R : Machine → Machine → Prop) : Prop extends SeenAlike R where
  setGlobals {m₁ m₂ : Machine} (globals : GlobalBlock) : R m₁ m₂ → R { m₁ with globals } { m₂ with globals }
  setTexts {m₁ m₂ : Machine} (c : StringCommand) : R m₁ m₂ →
    R { m₁ with strings := m₁.strings.after c } { m₂ with strings := m₂.strings.after c }
  setStore {m₁ m₂ : Machine} (c : StoreCommand) : R m₁ m₂ →
    R { m₁ with edicts := m₁.edicts.after c } { m₂ with edicts := m₂.edicts.after c }
  setRandom {m₁ m₂ : Machine} (f : Random → Random) : R m₁ m₂ →
    R { m₁ with random := f m₁.random } { m₂ with random := f m₂.random }
  setTracing {m₁ m₂ : Machine} (tracing : Bool) : R m₁ m₂ → R { m₁ with tracing } { m₂ with tracing }
  tell {m₁ m₂ : Machine} {e : Event} : e.report? = none → R m₁ m₂ → R (m₁.tell e) (m₂.tell e)

namespace SeenAlike

variable {R : Machine → Machine → Prop} (seen : SeenAlike R) {m₁ m₂ : Machine}
include seen

theorem view (h : R m₁ m₂) : m₁.view = m₂.view := by
  rw [Machine.view, seen.program h, seen.strings h, seen.globals h, Machine.view]

theorem time (h : R m₁ m₂) : m₁.time = m₂.time := by rw [Machine.time, seen.globals h, Machine.time]

theorem selfEdict (h : R m₁ m₂) : m₁.selfEdict = m₂.selfEdict := by
  rw [Machine.selfEdict, seen.globals h, Machine.selfEdict]

theorem currentName (h : R m₁ m₂) : Engine.currentName m₁ = Engine.currentName m₂ := by
  rw [Engine.currentName, seen.program h, seen.current h, Engine.currentName]

theorem nextLive (h : R m₁ m₂) (start : EdictId) (p : Edict → Bool) :
    Engine.nextLive m₁ start p = Engine.nextLive m₂ start p := by
  rw [Engine.nextLive, (seen.edicts h).inUse, (seen.edicts h).search, Engine.nextLive]

end SeenAlike

/-! ## 3. Globals, entities and strings. -/

namespace Engine

/-- **A steady action** does the same to any two machines in the relation, and fails with plain errors only. -/
abbrev Steady {α : Type} (R : Machine → Machine → Prop) (act : Engine α) : Prop := Uniform R Error.Plain act

variable {R : Machine → Machine → Prop} (kept : KeptAlike R)
include kept

theorem word_steady (ofs : Nat) : Steady R (word ofs) :=
  .reads (fun _ _ h => by rw [kept.globals h]) fun m => m.globals.get_plain ofs

theorem float_steady (ofs : Nat) : Steady R (float ofs) :=
  .reads (fun _ _ h => by rw [kept.globals h]) fun m => (m.globals.get_plain ofs).map _

theorem vector_steady (ofs : Nat) : Steady R (vector ofs) :=
  .reads (fun _ _ h => by rw [kept.globals h]) fun m => (m.globals.slice_plain ofs 3).map _

theorem slice_steady (ofs n : Nat) : Steady R (slice ofs n) :=
  .reads (fun _ _ h => by rw [kept.globals h]) fun m => m.globals.slice_plain ofs n

theorem edict_steady (id : EdictId) : Steady R (edict id) :=
  .reads (fun _ _ h => by rw [(kept.edicts h).get]) fun m => m.edicts.get_plain id

theorem string_steady (r : StringRef) : Steady R (string r) :=
  .reads (fun _ _ h => by rw [kept.strings h]) fun m => m.strings.get_plain r

omit kept in
theorem argOffset_steady (n : Nat) : Steady R (argOffset n) := .ite (.fail ⟨rfl, rfl⟩) (.pure _)

theorem argWord_steady (n : Nat) : Steady R (argWord n) := (argOffset_steady n).bind (word_steady kept)

theorem argFloat_steady (n : Nat) : Steady R (argFloat n) := (argOffset_steady n).bind (float_steady kept)

theorem argVector_steady (n : Nat) : Steady R (argVector n) := (argOffset_steady n).bind (vector_steady kept)

theorem argBytes_steady (n : Nat) : Steady R (argBytes n) :=
  (argWord_steady kept n).bind fun _ => string_steady kept _

theorem argText_steady (n : Nat) : Steady R (argText n) := (argBytes_steady kept n).bind fun _ => .pure _

theorem concatArgs_steady (ns : List Nat) : Steady R (concatArgs ns) := by
  induction ns with
  | nil => exact .pure _
  | cons n ns ih => exact (argBytes_steady kept n).bind fun _ => ih.bind fun _ => .pure _

/-- The one action that looks at the count of arguments. -/
theorem argsFrom_steady (counted : ∀ m₁ m₂, R m₁ m₂ → m₁.argc = m₂.argc) (start : Nat) :
    Steady R (argsFrom start) :=
  .get (fun _ _ h => by rw [counted _ _ h]) fun _ => concatArgs_steady kept _

theorem dump_steady (id : EdictId) : Steady R (dump id) :=
  (edict_steady kept id).bind fun _ => .get (fun _ _ h => by rw [kept.view h]) fun _ => .pure _

theorem checkWorldWrite_steady (id : EdictId) : Steady R (checkWorldWrite id) :=
  .get (fun _ _ h => by rw [kept.phase h, kept.legacy h]) fun _ => .ite (.fail ⟨rfl, rfl⟩) (.pure _)

theorem compareStrings_steady (a b : Nat) : Steady R (compareStrings a b) := by
  refine (word_steady kept a).bind fun _ => (word_steady kept b).bind fun _ => ?_
  exact .reads (fun _ _ h => by rw [kept.strings h]) fun m => m.strings.compare_plain _ _

theorem isNone_steady (k : RefKind) (w : Word) : Steady R (isNone k w) := by
  cases k with
  | string => exact .get (fun _ _ h => by rw [kept.strings h]) fun _ => .pure _
  | entity => exact .pure _
  | function => exact .pure _

theorem write_steady (ofs : Nat) (ws : List Word) : Steady R (write ofs ws) := by
  refine .update (fun _ _ h => by rw [kept.globals h]) (fun _ _ _ h _ _ => ?_) fun m => m.globals.check_plain _ _
  rw [kept.globals h]
  exact kept.setGlobals _ h

theorem setWord_steady (ofs : Nat) (w : Word) : Steady R (setWord ofs w) := write_steady kept ofs [w]

theorem setFloat_steady (ofs : Nat) (x : Single) : Steady R (setFloat ofs x) := setWord_steady kept ofs _

theorem setFlag_steady (ofs : Nat) (b : Bool) : Steady R (setFlag ofs b) := setWord_steady kept ofs _

theorem setVector_steady (ofs : Nat) (x : Vec3) : Steady R (setVector ofs x) := write_steady kept ofs _

theorem returnWord_steady (w : Word) : Steady R (returnWord w) := setWord_steady kept _ w

theorem returnFloat_steady (x : Single) : Steady R (returnFloat x) := setFloat_steady kept _ x

theorem returnVector_steady (x : Vec3) : Steady R (returnVector x) := setVector_steady kept _ x

theorem writeField_steady (id : EdictId) (ofs : Nat) (ws : List Word) : Steady R (writeField id ofs ws) := by
  refine .update (fun _ _ h => (kept.edicts h).checkWrite _ _ _) (fun _ _ _ h checked₁ checked₂ => ?_) fun m =>
    m.edicts.checkWrite_plain _ _ _
  rw [EdictStore.overwrite_eq_after checked₁, EdictStore.overwrite_eq_after checked₂]
  exact kept.setStore _ h

theorem temp_steady (s : Bytes) : Steady R (temp s) := by
  refine .get (fun _ _ h => by rw [kept.strings h]) fun m => ?_
  refine Uniform.bind (.modify fun _ _ h => ?_) fun _ => .reads (fun _ _ _ => rfl) fun _ => m.strings.tempRef_plain s
  rw [StringTable.putTemp_eq_after, StringTable.putTemp_eq_after]
  exact kept.setTexts _ h

theorem returnTemp_steady (s : Bytes) : Steady R (returnTemp s) :=
  (temp_steady kept s).bind fun _ => returnWord_steady kept _

theorem tell_steady {e : Event} (quiet : e.report? = none) : Steady R (tell e) :=
  .modify fun _ _ h => kept.tell quiet h

theorem spawn_steady : Steady R spawn := by
  refine Uniform.bind (.update (fun _ _ h => by rw [(kept.edicts h).vacancy, kept.time h])
    (fun _ m₁ m₂ h vacant₁ vacant₂ => ?_) fun m => ?_) fun _ => .pure _
  · rw [EdictStore.occupy_eq_after vacant₁, EdictStore.occupy_eq_after vacant₂, kept.time h]
    exact kept.setStore _ h
  · exact m.edicts.vacancy_plain m.time

theorem remove_steady (id : EdictId) : Steady R (remove id) := by
  refine (edict_steady kept id).bind fun _ => (tell_steady kept rfl).bind fun _ => ?_
  refine .get (fun _ _ h => by rw [kept.time h]) fun _ => ?_
  refine .update (fun _ _ h => (kept.edicts h).checkRelease id) (fun _ _ _ h checked₁ checked₂ => ?_) fun m =>
    m.edicts.checkRelease_plain id
  rw [EdictStore.free_eq_after checked₁, EdictStore.free_eq_after checked₂]
  exact kept.setStore _ h

/-! ## 4. The builtins of the engine. -/

theorem draw_steady (drawn : ∀ m₁ m₂, R m₁ m₂ → m₁.random = m₂.random) : Steady R draw := by
  intro m₁ m₂ h
  refine .ok rfl rfl ⟨by rw [drawn _ _ h], ?_⟩
  exact kept.setRandom (fun random => random.next.2) h

theorem returnOf_steady (f : Single → Single) : Steady R (returnOf f) :=
  (argFloat_steady kept 0).bind fun _ => returnFloat_steady kept _

theorem makeVectors_steady : Steady R makeVectors :=
  (argVector_steady kept 0).bind fun _ => (setVector_steady kept _ _).bind fun _ =>
    (setVector_steady kept _ _).bind fun _ => setVector_steady kept _ _

theorem find_steady : Steady R find := by
  refine (argWord_steady kept 0).bind fun _ => (argWord_steady kept 1).bind fun _ =>
    (argWord_steady kept 2).bind fun _ => ?_
  refine .ite (.fail ⟨rfl, rfl⟩) ((string_steady kept _).bind fun _ => .get (fun m₁ m₂ h => ?_) fun _ => ?_)
  · rw [kept.nextLive h, kept.strings h]
  · exact returnWord_steady kept _

theorem coredump_steady : Steady R coredump := by
  refine .get (fun _ _ h => by rw [(kept.edicts h).liveEdicts, kept.view h]) fun _ => ?_
  refine Uniform.bind (.forIn (fun _ _ => ?_) _) fun _ => .pure _
  exact (tell_steady kept rfl).bind fun _ => .pure _

theorem setTrace_steady (on : Bool) : Steady R (setTrace on) :=
  .modify fun _ _ h => kept.setTracing on h

/-- The host is asked after it was told, and answers both alike. -/
theorem cvar_steady : Steady R cvar := by
  refine (argText_steady kept 0).bind fun name => (tell_steady kept rfl).bind fun _ => ?_
  refine .get (fun m₁ m₂ h => ?_) fun _ => returnFloat_steady kept _
  dsimp only
  rw [kept.answer h]

theorem raise_steady (counted : ∀ m₁ m₂, R m₁ m₂ → m₁.argc = m₂.argc) : Steady R raise := by
  refine (argsFrom_steady kept counted 0).bind fun _ => .get (fun m₁ m₂ h => ?_) fun _ => ?_
  · rw [kept.currentName h]
  · exact (tell_steady kept rfl).bind fun _ => .fail ⟨rfl, rfl⟩

theorem raiseObject_steady (counted : ∀ m₁ m₂, R m₁ m₂ → m₁.argc = m₂.argc) : Steady R raiseObject := by
  refine (argsFrom_steady kept counted 0).bind fun _ => .get (fun m₁ m₂ h => ?_) fun _ => ?_
  · rw [kept.currentName h, kept.selfEdict h]
  · refine (dump_steady kept _).bind fun _ => (tell_steady kept rfl).bind fun _ => ?_
    exact .ite ((remove_steady kept _).bind fun _ => .fail ⟨rfl, rfl⟩) (.fail ⟨rfl, rfl⟩)

/-- **No builtin of the engine can tell the two apart**, but for the one that draws. -/
theorem core_steady (counted : ∀ m₁ m₂, R m₁ m₂ → m₁.argc = m₂.argc) (b : CoreBuiltin)
    (drawn : (∀ m₁ m₂, R m₁ m₂ → m₁.random = m₂.random) ∨ b ≠ .random) : Steady R (core b) := by
  cases b with
  | makevectors => exact makeVectors_steady kept
  | random =>
    exact (draw_steady kept (drawn.resolve_right (· rfl))).bind fun _ => returnFloat_steady kept _
  | normalize => exact (argVector_steady kept 0).bind fun _ => returnVector_steady kept _
  | vlen => exact (argVector_steady kept 0).bind fun _ => returnFloat_steady kept _
  | vectoyaw => exact (argVector_steady kept 0).bind fun _ => returnFloat_steady kept _
  | vectoangles => exact (argVector_steady kept 0).bind fun _ => returnVector_steady kept _
  | rint => exact returnOf_steady kept _
  | floor => exact returnOf_steady kept _
  | ceil => exact returnOf_steady kept _
  | fabs => exact returnOf_steady kept _
  | sin => exact returnOf_steady kept _
  | cos => exact returnOf_steady kept _
  | sqrt => exact returnOf_steady kept _
  | pow =>
    exact (argFloat_steady kept 0).bind fun _ => (argFloat_steady kept 1).bind fun _ => returnFloat_steady kept _
  | ftos => exact (argFloat_steady kept 0).bind fun _ => returnTemp_steady kept _
  | vtos => exact (argVector_steady kept 0).bind fun _ => returnTemp_steady kept _
  | stof => exact (argText_steady kept 0).bind fun _ => returnFloat_steady kept _
  | strlen => exact (argBytes_steady kept 0).bind fun _ => returnFloat_steady kept _
  | strcat => exact (argsFrom_steady kept counted 0).bind fun _ => returnTemp_steady kept _
  | substring =>
    refine (argFloat_steady kept 1).bind fun _ => (argFloat_steady kept 2).bind fun _ => ?_
    exact (argBytes_steady kept 0).bind fun _ => returnTemp_steady kept _
  | spawn => exact (spawn_steady kept).bind fun _ => returnWord_steady kept _
  | remove => exact (argWord_steady kept 0).bind fun _ => remove_steady kept _
  | find => exact find_steady kept
  | nextent =>
    refine (argWord_steady kept 0).bind fun _ => .get (fun _ _ h => ?_) fun _ => returnWord_steady kept _
    rw [kept.nextLive h]
  | eprint => exact (argWord_steady kept 0).bind fun _ => (dump_steady kept _).bind fun _ => tell_steady kept rfl
  | coredump => exact coredump_steady kept
  | error => exact raise_steady kept counted
  | objerror => exact raiseObject_steady kept counted
  | dprint => exact (argsFrom_steady kept counted 0).bind fun _ => tell_steady kept rfl
  | traceon => exact setTrace_steady kept true
  | traceoff => exact setTrace_steady kept false
  | cvar => exact cvar_steady kept
  | checkextension =>
    refine (argText_steady kept 0).bind fun _ => .get (fun _ _ h => ?_) fun _ => returnFloat_steady kept _
    rw [kept.registry h]
  | builtinFind =>
    refine (argText_steady kept 0).bind fun _ => .get (fun _ _ h => ?_) fun _ => returnFloat_steady kept _
    rw [kept.builtins h]

/-! ## 5. The statements that compute. -/

theorem load_steady (a b c n : Nat) : Steady R (load a b c n) := by
  refine (word_steady kept a).bind fun id => (word_steady kept b).bind fun field => Uniform.bind ?_ fun _ =>
    write_steady kept _ _
  exact .reads (fun _ _ h => by rw [(kept.edicts h).get]) fun m => m.edicts.words_plain id _ n

theorem address_steady (a b c : Nat) : Steady R (address a b c) := by
  refine (word_steady kept a).bind fun id => (checkWorldWrite_steady kept id).bind fun _ =>
    (edict_steady kept id).bind fun _ => (word_steady kept b).bind fun field => Uniform.bind ?_ fun _ =>
    setWord_steady kept _ _
  exact .reads (fun _ _ h => by rw [(kept.edicts h).fieldWords]) fun m => FieldPointer.encode_plain _ _

theorem storeThrough_steady (a b n : Nat) : Steady R (storeThrough a b n) := by
  refine (word_steady kept b).bind fun ptr => Uniform.bind ?_ fun target =>
    (checkWorldWrite_steady kept _).bind fun _ => (slice_steady kept a n).bind fun _ => writeField_steady kept _ _ _
  exact .reads (fun _ _ h => by rw [(kept.edicts h).fieldWords, (kept.edicts h).count]) fun m =>
    FieldPointer.decode_plain _ _ _

/-- A field is written if there is one. -/
theorem writeOptional_steady (id : EdictId) (ofs : Option Nat) (w : Word) :
    Steady R (match ofs with
      | some ofs => writeField id ofs [w]
      | none => Pure.pure ()) := by
  cases ofs with
  | some ofs => exact writeField_steady kept id ofs [w]
  | none => exact .pure _

theorem state_steady (a b : Nat) : Steady R (state a b) := by
  refine (word_steady kept _).bind fun id => (checkWorldWrite_steady kept id).bind fun _ =>
    (float_steady kept _).bind fun _ => (word_steady kept a).bind fun _ => (word_steady kept b).bind fun _ =>
    (edict_steady kept id).bind fun _ => ?_
  refine .get (fun _ _ h => by rw [kept.hot h]) fun _ => ?_
  exact (writeOptional_steady kept id _ _).bind fun _ => (writeOptional_steady kept id _ _).bind fun _ =>
    writeOptional_steady kept id _ _

/-- **No statement that computes can tell the two apart.** -/
theorem compute_steady (st : Statement) : Steady R (compute st) := by
  obtain ⟨op, a, b, c⟩ := st
  have float := setFloat_steady kept
  have flag := setFlag_steady kept
  have vector := setVector_steady kept
  cases op with
  | done => exact .pure _
  | ret => exact .pure _
  | float op => exact (float_steady kept _).bind fun _ => (float_steady kept _).bind fun _ => float _ _
  | vector op => exact (vector_steady kept _).bind fun _ => (vector_steady kept _).bind fun _ => vector _ _
  | dot => exact (vector_steady kept _).bind fun _ => (vector_steady kept _).bind fun _ => float _ _
  | scaleLeft => exact (float_steady kept _).bind fun _ => (vector_steady kept _).bind fun _ => vector _ _
  | scaleRight => exact (vector_steady kept _).bind fun _ => (float_steady kept _).bind fun _ => vector _ _
  | eqVector => exact (vector_steady kept _).bind fun _ => (vector_steady kept _).bind fun _ => flag _ _
  | neVector => exact (vector_steady kept _).bind fun _ => (vector_steady kept _).bind fun _ => flag _ _
  | eqRef k =>
    cases k with
    | string => exact (compareStrings_steady kept _ _).bind fun _ => flag _ _
    | entity => exact (word_steady kept _).bind fun _ => (word_steady kept _).bind fun _ => flag _ _
    | function => exact (word_steady kept _).bind fun _ => (word_steady kept _).bind fun _ => flag _ _
  | neRef k =>
    cases k with
    | string => exact (compareStrings_steady kept _ _).bind fun _ => float _ _
    | entity => exact (word_steady kept _).bind fun _ => (word_steady kept _).bind fun _ => flag _ _
    | function => exact (word_steady kept _).bind fun _ => (word_steady kept _).bind fun _ => flag _ _
  | load s => exact load_steady kept _ _ _ _
  | address => exact address_steady kept _ _ _
  | store s => exact (slice_steady kept _ _).bind fun _ => write_steady kept _ _
  | storeThrough s => exact storeThrough_steady kept _ _ _
  | notFloat => exact (float_steady kept _).bind fun _ => flag _ _
  | notVector => exact (vector_steady kept _).bind fun _ => flag _ _
  | notRef k => exact (word_steady kept _).bind fun _ => (isNone_steady kept k _).bind fun _ => flag _ _
  | branchIf => exact .pure _
  | branchIfNot => exact .pure _
  | goto => exact .pure _
  | call argc => exact .pure _
  | state => exact state_steady kept _ _

/-! ## 6. What calls, returns and branches are made of. -/

theorem function_steady (f : FuncRef) : Steady R (function f) := by
  refine .ite (.fail ⟨rfl, rfl⟩) (.get (fun _ _ h => by rw [kept.program h]) fun m => ?_)
  dsimp only
  split
  · exact .pure _
  · exact .fail ⟨rfl, rfl⟩

theorem jump_steady (pc : Nat) (st : Statement) : Steady R (jump pc st) :=
  .get (fun _ _ h => by rw [kept.program h]) fun _ => .ite (.pure _) (.fail ⟨rfl, rfl⟩)

theorem copyWords_steady (src dst n : Nat) : Steady R (copyWords src dst n) := by
  induction n generalizing src dst with
  | zero => exact .pure _
  | succ n ih => exact (word_steady kept src).bind fun _ => (setWord_steady kept _ _).bind fun _ => ih _ _

theorem copyArgs_steady (i dst : Nat) (sizes : List Nat) : Steady R (copyArgs i dst sizes) := by
  induction sizes generalizing i dst with
  | nil => exact .pure _
  | cons size sizes ih => exact (copyWords_steady kept _ _ _).bind fun _ => ih _ _

theorem returnWords_steady (a : Nat) : Steady R (returnWords a) :=
  .get (fun _ _ h => by rw [kept.globals h]) fun _ => write_steady kept _ _

end Engine

/-! ## 7. What stays. -/

/-- **Only data changed**: words, texts, entities, the numbers to come, the trace and what the host was told. -/
structure Machine.OnlyData (m m' : Machine) : Prop where
  config : m'.config = m.config
  program : m'.program = m.program
  hot : m'.hot = m.hot
  fieldCache : m'.fieldCache = m.fieldCache
  registry : m'.registry = m.registry
  builtins : m'.builtins = m.builtins
  calls : m'.calls = m.calls
  locals : m'.locals = m.locals
  state : m'.state = m.state
  phase : m'.phase = m.phase
  legacy : m'.legacy = m.legacy
  current : m'.current = m.current
  statement : m'.statement = m.statement
  argc : m'.argc = m.argc
  profile : m'.profile = m.profile

theorem Machine.OnlyData.refl (m : Machine) : m.OnlyData m := by
  constructor <;> rfl

/-- A machine beside itself. -/
theorem KeptAlike.onlyData (m : Machine) : KeptAlike fun m₁ m₂ => m₁ = m₂ ∧ m.OnlyData m₁ where
  program h := congrArg _ h.1
  registry h := congrArg _ h.1
  builtins h := congrArg _ h.1
  hot h := congrArg _ h.1
  phase h := congrArg _ h.1
  legacy h := congrArg _ h.1
  current h := congrArg _ h.1
  strings h := congrArg _ h.1
  globals h := congrArg _ h.1
  edicts h := .inl (congrArg _ h.1)
  answer h _ := by rw [h.1]
  setGlobals _ h := ⟨by rw [h.1], { h.2 with }⟩
  setTexts _ h := ⟨by rw [h.1], { h.2 with }⟩
  setStore _ h := ⟨by rw [h.1], { h.2 with }⟩
  setRandom _ h := ⟨by rw [h.1], { h.2 with }⟩
  setTracing _ h := ⟨by rw [h.1], { h.2 with }⟩
  tell _ h := ⟨by rw [h.1], { h.2 with }⟩

namespace Engine

variable {α : Type}

/-- **Steady code changes only data**, and fails with plain errors. -/
theorem onlyData_of_steady {act : Engine α}
    (steady : ∀ {R : Machine → Machine → Prop}, KeptAlike R →
      (∀ m₁ m₂, R m₁ m₂ → m₁.argc = m₂.argc) →
      (∀ m₁ m₂, R m₁ m₂ → m₁.random = m₂.random) → Steady R act) (m : Machine) :
    Ends act m (fun _ m' => m.OnlyData m') fun e m' => e.Plain ∧ m.OnlyData m' := by
  have kept := KeptAlike.onlyData m
  have alone := steady kept (fun _ _ h => congrArg _ h.1) fun _ _ h => congrArg _ h.1
  exact (alone m m ⟨rfl, .refl m⟩).ends (fun _ _ h => h.2.2) fun _ _ h => ⟨h.1, h.2.2⟩

end Engine

end QuakeProgs
