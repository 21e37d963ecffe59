/-
  File:      QuakeProgs/Proofs/Machine/Sparing.lean
  Subject:   CODE THAT FREES NOTHING: every statement, and every builtin of the engine but two.

  A statement that computes hands no entity back, and neither do calls and returns. Nor does any builtin of the
  engine, except the one that removes an entity and the one that gives up on `self`. So whatever survives
  handing entities out, writing to their fields and telling the host other things survives all of these.

  * `Sparing` -- what code keeps that frees nothing;
  * `Engine.compute_spares`, `Engine.enter_spares`, `Engine.leave_spares` -- statements, calls and returns;
  * `CoreBuiltin.removes`, `Engine.core_spares` -- builtins.
-/
import QuakeProgs.Proofs.Machine.Assembly

namespace QuakeProgs

/-! ## 1. What it keeps. -/

/-- The entity that the host is told to unlink. -/
def Event.unlinked? : Event → Option EdictId
  | .unlink id => some id
  | _ => none

/-- **What code keeps that frees nothing**: it hands entities out, writes to their fields, and tells the host
    anything but that one is about to be freed. The rest does not matter, but for the builtins it may call. -/
structure Sparing (I : Machine → Prop) : Prop where
  aside {m m' : Machine} : I m → m'.edicts = m.edicts → m'.host = m.host → m'.builtins = m.builtins → I m'
  handOut {m : Machine} {i : Nat} : m.edicts.vacancy m.time = .ok i → I m →
    I { m with edicts := m.edicts.occupy i }
  overwrite {m : Machine} {id : EdictId} {ofs : Nat} {ws : List Word} :
    m.edicts.checkWrite id ofs ws.length = .ok () → I m → I { m with edicts := m.edicts.overwrite id ofs ws }
  tell {m : Machine} {e : Event} : e.unlinked? = none → I m → I (m.tell e)

/-- The builtins that free entities. -/
def CoreBuiltin.removes : CoreBuiltin → Bool
  | .remove | .objerror => true
  | _ => false

namespace Engine

section Maintains

variable {α β : Type} {I : Machine → Prop}

theorem Maintains.get : Maintains I (MonadState.get : Engine Machine) := fun _ h => h

theorem Maintains.modify {f : Machine → Machine} (hf : ∀ m, I m → I (f m)) : Maintains I (modify f) :=
  fun m h => ends_modify (hf m h)

theorem Maintains.update {check : Machine → Except Error α} {change : α → Machine → Machine}
    (hc : ∀ m a, check m = .ok a → I m → I (change a m)) : Maintains I (update check change) :=
  fun m h => ends_update (fun a ha => hc m a ha h) fun _ _ => h

theorem Maintains.ite {c : Prop} [Decidable c] {x y : Engine α} (hx : Maintains I x) (hy : Maintains I y) :
    Maintains I (if c then x else y) := by
  split
  · exact hx
  · exact hy

theorem Maintains.forIn {l : List β} {f : β → PUnit → Engine (ForInStep PUnit)} (hf : ∀ b u, Maintains I (f b u))
    (u : PUnit) : Maintains I (forIn l u f) := by
  induction l generalizing u with
  | nil => exact .pure _
  | cons b l ih =>
    rw [List.forIn_cons]
    refine (hf b u).bind fun step => ?_
    cases step with
    | done u' => exact .pure _
    | yield u' => exact ih u'

theorem argOffset_reads (n : Nat) : Maintains I (argOffset n) := .ite (.fail _) (.pure _)

theorem word_reads (ofs : Nat) : Maintains I (word ofs) := .reads _

theorem argWord_reads (n : Nat) : Maintains I (argWord n) := (argOffset_reads n).bind fun _ => .reads _

theorem argFloat_reads (n : Nat) : Maintains I (argFloat n) := (argOffset_reads n).bind fun _ => .reads _

theorem argVector_reads (n : Nat) : Maintains I (argVector n) := (argOffset_reads n).bind fun _ => .reads _

theorem argBytes_reads (n : Nat) : Maintains I (argBytes n) := (argWord_reads n).bind fun _ => .reads _

theorem argText_reads (n : Nat) : Maintains I (argText n) := (argBytes_reads n).bind fun _ => .pure _

theorem concatArgs_reads (ns : List Nat) : Maintains I (concatArgs ns) := by
  induction ns with
  | nil => exact .pure _
  | cons n ns ih => exact (argBytes_reads n).bind fun _ => ih.bind fun _ => .pure _

theorem argsFrom_reads (start : Nat) : Maintains I (argsFrom start) :=
  Maintains.get.bind fun _ => concatArgs_reads _

theorem dump_reads (id : EdictId) : Maintains I (dump id) :=
  (Maintains.reads _).bind fun _ => Maintains.get.bind fun _ => .pure _

theorem function_reads (f : FuncRef) : Maintains I (function f) := by
  refine .ite (.fail _) (Maintains.get.bind fun m => ?_)
  dsimp only
  split
  · exact .pure _
  · exact .fail _

theorem fetch_reads (pc : Nat) : Maintains I (fetch pc) := by
  refine Maintains.get.bind fun m => ?_
  split
  · exact .pure _
  · exact .fail _

theorem jump_reads (pc : Nat) (st : Statement) : Maintains I (jump pc st) :=
  Maintains.get.bind fun _ => .ite (.pure _) (.fail _)

theorem checkWorldWrite_reads (id : EdictId) : Maintains I (checkWorldWrite id) :=
  Maintains.get.bind fun _ => .ite (.fail _) (.pure _)

theorem compareStrings_reads (a b : Nat) : Maintains I (compareStrings a b) :=
  (word_reads a).bind fun _ => (word_reads b).bind fun _ => .reads _

theorem isNone_reads (k : RefKind) (w : Word) : Maintains I (isNone k w) := by
  cases k with
  | string => exact Maintains.get.bind fun _ => .pure _
  | entity => exact .pure _
  | function => exact .pure _

end Maintains

/-! ## 2. Statements, calls and returns. -/

section Sparing

variable {I : Machine → Prop} (sparing : Sparing I)
include sparing

theorem write_spares (ofs : Nat) (ws : List Word) : Maintains I (write ofs ws) :=
  .update fun _ _ _ h => sparing.aside h rfl rfl rfl

theorem setWord_spares (ofs : Nat) (w : Word) : Maintains I (setWord ofs w) := write_spares sparing _ _

theorem setFloat_spares (ofs : Nat) (x : Single) : Maintains I (setFloat ofs x) := write_spares sparing _ _

theorem setFlag_spares (ofs : Nat) (b : Bool) : Maintains I (setFlag ofs b) := write_spares sparing _ _

theorem setVector_spares (ofs : Nat) (v : Vec3) : Maintains I (setVector ofs v) := write_spares sparing _ _

theorem writeField_spares (id : EdictId) (ofs : Nat) (ws : List Word) : Maintains I (writeField id ofs ws) :=
  .update fun _ _ checked h => sparing.overwrite checked h

theorem tell_spares {e : Event} (other : e.unlinked? = none) : Maintains I (tell e) :=
  .modify fun _ h => sparing.tell other h

theorem trace_spares (pc : Nat) : Maintains I (trace pc) := by
  refine .modify fun m h => ?_
  split
  · exact sparing.tell rfl h
  · exact h

theorem report_spares (e : Error) : Maintains I (report e) :=
  .ite (.pure _) (Maintains.get.bind fun _ => (tell_spares sparing rfl).bind fun _ => .pure _)

theorem load_spares (a b c n : Nat) : Maintains I (load a b c n) := by
  refine (word_reads a).bind fun _ => (word_reads b).bind fun _ => Maintains.bind (.reads _) fun _ => ?_
  exact write_spares sparing _ _

theorem address_spares (a b c : Nat) : Maintains I (address a b c) := by
  refine (word_reads a).bind fun id => (checkWorldWrite_reads id).bind fun _ => ?_
  refine (Maintains.reads _).bind fun _ => (word_reads b).bind fun _ => Maintains.bind (.reads _) fun _ => ?_
  exact setWord_spares sparing _ _

theorem storeThrough_spares (a b n : Nat) : Maintains I (storeThrough a b n) := by
  refine (word_reads b).bind fun _ => Maintains.bind (.reads _) fun _ => ?_
  refine (checkWorldWrite_reads _).bind fun _ => (Maintains.reads _).bind fun _ => ?_
  exact writeField_spares sparing _ _ _

/-- A field is written if there is one. -/
theorem writeOptional_spares (id : EdictId) (ofs : Option Nat) (w : Word) :
    Maintains I (match ofs with
      | some ofs => writeField id ofs [w]
      | none => pure ()) := by
  cases ofs with
  | some ofs => exact writeField_spares sparing id ofs [w]
  | none => exact .pure _

theorem state_spares (a b : Nat) : Maintains I (state a b) := by
  refine (word_reads _).bind fun id => (checkWorldWrite_reads id).bind fun _ => ?_
  refine (Maintains.reads _).bind fun _ => (word_reads a).bind fun _ => (word_reads b).bind fun _ => ?_
  refine (Maintains.reads _).bind fun _ => Maintains.get.bind fun _ => ?_
  exact (writeOptional_spares sparing id _ _).bind fun _ => (writeOptional_spares sparing id _ _).bind fun _ =>
    writeOptional_spares sparing id _ _

/-- **No statement that computes frees an entity.** -/
theorem compute_spares (st : Statement) : Maintains I (compute st) := by
  obtain ⟨op, a, b, c⟩ := st
  have float := setFloat_spares sparing
  have flag := setFlag_spares sparing
  have vector := setVector_spares sparing
  cases op with
  | done => exact .pure _
  | ret => exact .pure _
  | float op => exact (Maintains.reads _).bind fun _ => (Maintains.reads _).bind fun _ => float _ _
  | vector op => exact (Maintains.reads _).bind fun _ => (Maintains.reads _).bind fun _ => vector _ _
  | dot => exact (Maintains.reads _).bind fun _ => (Maintains.reads _).bind fun _ => float _ _
  | scaleLeft => exact (Maintains.reads _).bind fun _ => (Maintains.reads _).bind fun _ => vector _ _
  | scaleRight => exact (Maintains.reads _).bind fun _ => (Maintains.reads _).bind fun _ => vector _ _
  | eqVector => exact (Maintains.reads _).bind fun _ => (Maintains.reads _).bind fun _ => flag _ _
  | neVector => exact (Maintains.reads _).bind fun _ => (Maintains.reads _).bind fun _ => flag _ _
  | eqRef k =>
    cases k with
    | string => exact (compareStrings_reads _ _).bind fun _ => flag _ _
    | entity => exact (Maintains.reads _).bind fun _ => (Maintains.reads _).bind fun _ => flag _ _
    | function => exact (Maintains.reads _).bind fun _ => (Maintains.reads _).bind fun _ => flag _ _
  | neRef k =>
    cases k with
    | string => exact (compareStrings_reads _ _).bind fun _ => float _ _
    | entity => exact (Maintains.reads _).bind fun _ => (Maintains.reads _).bind fun _ => flag _ _
    | function => exact (Maintains.reads _).bind fun _ => (Maintains.reads _).bind fun _ => flag _ _
  | load s => exact load_spares sparing _ _ _ _
  | address => exact address_spares sparing _ _ _
  | store s => exact (Maintains.reads _).bind fun _ => write_spares sparing _ _
  | storeThrough s => exact storeThrough_spares sparing _ _ _
  | notFloat => exact (Maintains.reads _).bind fun _ => flag _ _
  | notVector => exact (Maintains.reads _).bind fun _ => flag _ _
  | notRef k => exact (Maintains.reads _).bind fun _ => (isNone_reads k _).bind fun _ => flag _ _
  | branchIf => exact .pure _
  | branchIfNot => exact .pure _
  | goto => exact .pure _
  | call argc => exact .pure _
  | state => exact state_spares sparing _ _

theorem copyWords_spares (src dst n : Nat) : Maintains I (copyWords src dst n) := by
  induction n generalizing src dst with
  | zero => exact .pure _
  | succ n ih => exact (word_reads src).bind fun _ => (setWord_spares sparing _ _).bind fun _ => ih _ _

theorem copyArgs_spares (i dst : Nat) (sizes : List Nat) : Maintains I (copyArgs i dst sizes) := by
  induction sizes generalizing i dst with
  | nil => exact .pure _
  | cons size sizes ih => exact (copyWords_spares sparing _ _ _).bind fun _ => ih _ _

/-- **Entering a function frees no entity.** -/
theorem enter_spares (f : FuncRef) : Maintains I (enter f) := by
  refine (function_reads f).bind fun func => ?_
  cases func.codeStart? with
  | none => exact .fail _
  | some entry =>
    have pushed : Maintains I pushFrame := .update fun _ _ _ h => sparing.aside h rfl rfl rfl
    have saved : ∀ region, Maintains I (saveLocals region) := fun _ =>
      .update fun _ _ _ h => sparing.aside h rfl rfl rfl
    refine pushed.bind fun _ => (Maintains.reads _).bind fun _ => (saved _).bind fun _ => ?_
    refine (copyArgs_spares sparing _ _ _).bind fun _ => ?_
    exact Maintains.bind (.modify fun _ h => sparing.aside h rfl rfl rfl) fun _ => .pure _

/-- **Leaving a function frees no entity.** -/
theorem leave_spares : Maintains I leave := by
  refine Maintains.get.bind fun m => ?_
  cases m.program.function? m.current with
  | none => exact .fail _
  | some func =>
    have loaded : Maintains I (loadLocals func.locals) := .update fun _ _ _ h => sparing.aside h rfl rfl rfl
    have popped : Maintains I popFrame := .update fun _ _ _ h => sparing.aside h rfl rfl rfl
    refine .ite (.fail _) ((Maintains.reads _).bind fun _ => loaded.bind fun _ => ?_)
    exact (write_spares sparing _ _).bind fun _ => popped.bind fun _ => .pure _

theorem returnWords_spares (a : Nat) : Maintains I (returnWords a) :=
  Maintains.get.bind fun _ => write_spares sparing _ _

/-! ## 3. Builtins. -/

theorem returnFloat_spares (x : Single) : Maintains I (returnFloat x) := write_spares sparing _ _

theorem returnVector_spares (v : Vec3) : Maintains I (returnVector v) := write_spares sparing _ _

theorem returnWord_spares (w : Word) : Maintains I (returnWord w) := write_spares sparing _ _

theorem returnTemp_spares (s : Bytes) : Maintains I (returnTemp s) := by
  have written : Maintains I (modify fun m => { m with strings := m.strings.putTemp s }) :=
    .modify fun _ h => sparing.aside h rfl rfl rfl
  have placed : Maintains I (temp s) := Maintains.get.bind fun _ => written.bind fun _ => .reads _
  exact placed.bind fun _ => returnWord_spares sparing _

theorem returnOf_spares (f : Single → Single) : Maintains I (returnOf f) :=
  (argFloat_reads 0).bind fun _ => returnFloat_spares sparing _

theorem makeVectors_spares : Maintains I makeVectors :=
  (argVector_reads 0).bind fun _ => (setVector_spares sparing _ _).bind fun _ =>
    (setVector_spares sparing _ _).bind fun _ => setVector_spares sparing _ _

theorem draw_spares : Maintains I draw := fun m h => by
  have drawn : I { m with random := m.random.next.2 } := sparing.aside h rfl rfl rfl
  exact drawn

theorem spawn_spares : Maintains I spawn := by
  refine Maintains.bind (.update fun _ _ vacant h => ?_) fun _ => .pure _
  exact sparing.handOut vacant h

theorem find_spares : Maintains I find := by
  refine (argWord_reads 0).bind fun _ => (argWord_reads 1).bind fun _ => (argWord_reads 2).bind fun _ => ?_
  refine .ite (.fail _) ((Maintains.reads _).bind fun _ => Maintains.get.bind fun _ => ?_)
  exact returnWord_spares sparing _

theorem coredump_spares : Maintains I coredump := by
  refine Maintains.get.bind fun _ => Maintains.bind (.forIn (fun _ _ => ?_) _) fun _ => .pure _
  exact (tell_spares sparing rfl).bind fun _ => .pure _

theorem raise_spares : Maintains I raise :=
  (argsFrom_reads 0).bind fun _ => Maintains.get.bind fun _ => (tell_spares sparing rfl).bind fun _ => .fail _

theorem cvar_spares : Maintains I cvar :=
  (argText_reads 0).bind fun _ => (tell_spares sparing rfl).bind fun _ => Maintains.get.bind fun _ =>
    returnFloat_spares sparing _

/-- **No other builtin of the engine frees an entity.** -/
theorem core_spares {b : CoreBuiltin} (other : b.removes = false) : Maintains I (core b) := by
  cases b with
  | makevectors => exact makeVectors_spares sparing
  | random => exact (draw_spares sparing).bind fun _ => returnFloat_spares sparing _
  | normalize => exact (argVector_reads 0).bind fun _ => returnVector_spares sparing _
  | vlen => exact (argVector_reads 0).bind fun _ => returnFloat_spares sparing _
  | vectoyaw => exact (argVector_reads 0).bind fun _ => returnFloat_spares sparing _
  | vectoangles => exact (argVector_reads 0).bind fun _ => returnVector_spares sparing _
  | rint => exact returnOf_spares sparing _
  | floor => exact returnOf_spares sparing _
  | ceil => exact returnOf_spares sparing _
  | fabs => exact returnOf_spares sparing _
  | sin => exact returnOf_spares sparing _
  | cos => exact returnOf_spares sparing _
  | sqrt => exact returnOf_spares sparing _
  | pow => exact (argFloat_reads 0).bind fun _ => (argFloat_reads 1).bind fun _ => returnFloat_spares sparing _
  | ftos => exact (argFloat_reads 0).bind fun _ => returnTemp_spares sparing _
  | vtos => exact (argVector_reads 0).bind fun _ => returnTemp_spares sparing _
  | stof => exact (argText_reads 0).bind fun _ => returnFloat_spares sparing _
  | strlen => exact (argBytes_reads 0).bind fun _ => returnFloat_spares sparing _
  | strcat => exact (argsFrom_reads 0).bind fun _ => returnTemp_spares sparing _
  | substring =>
    refine (argFloat_reads 1).bind fun _ => (argFloat_reads 2).bind fun _ => ?_
    exact (argBytes_reads 0).bind fun _ => returnTemp_spares sparing _
  | spawn => exact (spawn_spares sparing).bind fun _ => returnWord_spares sparing _
  | remove => cases other
  | find => exact find_spares sparing
  | nextent => exact (argWord_reads 0).bind fun _ => Maintains.get.bind fun _ => returnWord_spares sparing _
  | eprint => exact (argWord_reads 0).bind fun _ => (dump_reads _).bind fun _ => tell_spares sparing rfl
  | coredump => exact coredump_spares sparing
  | error => exact raise_spares sparing
  | objerror => cases other
  | dprint => exact (argsFrom_reads 0).bind fun _ => tell_spares sparing rfl
  | traceon => exact .modify fun _ h => sparing.aside h rfl rfl rfl
  | traceoff => exact .modify fun _ h => sparing.aside h rfl rfl rfl
  | cvar => exact cvar_spares sparing
  | checkextension => exact (argText_reads 0).bind fun _ => Maintains.get.bind fun _ => returnFloat_spares sparing _
  | builtinFind => exact (argText_reads 0).bind fun _ => Maintains.get.bind fun _ => returnFloat_spares sparing _

end Sparing

end Engine

end QuakeProgs
