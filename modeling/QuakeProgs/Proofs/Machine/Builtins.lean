/-
  File:      QuakeProgs/Proofs/Machine/Builtins.lean
  Subject:   THE ENGINE'S OWN BUILTINS STAY: none of them touches a stack, a register or the world.

  A builtin reads the parameter globals, which every image has, and writes the return global, the
  direction globals, the strings and entities other than the world.

  * `Engine.core_quiet` -- every builtin is quiet on a block with the well-known globals;
  * `Registry.All`, `BuiltinTable.All` -- what holds of every registered builtin holds of every one
    that a program can call (`BuiltinTable.all_build`);
  * `Registry.OnlyCore` -- no builtin of the host is registered.
-/
import QuakeProgs.Proofs.Machine.Evolution

namespace QuakeProgs

namespace Engine

variable {m₀ : Machine}

/-! ## 1. Arguments and results. -/

theorem argOffset_eq {n : Nat} (hn : n < 8) : argOffset n = pure (Global.parm n) :=
  if_neg (Nat.not_le.mpr hn)

theorem draw_quiet : Quiet m₀ draw := by
  refine .modifyGet fun m hm => ?_
  dsimp only
  exact { hm with }

theorem dump_quiet (id : EdictId) : Quiet m₀ (dump id) :=
  (edict_quiet id).bind fun _ => Quiet.get.bind fun _ => .pure _

theorem coredump_quiet : Quiet m₀ coredump := by
  refine Quiet.get.bind fun m => Quiet.bind (Quiet.forIn (fun b _ => ?_) _) fun _ => .pure _
  exact (tell_quiet _).bind fun _ => .pure _

theorem setTrace_quiet (on : Bool) : Quiet m₀ (setTrace on) := .modify fun _ hm => { hm with }

section Arguments

variable (hw : Global.count ≤ m₀.globals.size)
include hw

theorem parm_lt {n : Nat} (hn : n < 8) : Global.parm n + 3 ≤ m₀.globals.size := by
  simp only [Global.count, Global.parm, Global.firstParm] at hw ⊢
  omega

theorem argWord_quiet {n : Nat} (hn : n < 8) : Quiet m₀ (argWord n) := by
  have := parm_lt hw hn
  rw [argWord, argOffset_eq hn, pure_bind]
  exact word_quiet (by omega)

theorem argFloat_quiet {n : Nat} (hn : n < 8) : Quiet m₀ (argFloat n) := by
  have := parm_lt hw hn
  rw [argFloat, argOffset_eq hn, pure_bind]
  exact float_quiet (by omega)

theorem argVector_quiet {n : Nat} (hn : n < 8) : Quiet m₀ (argVector n) := by
  rw [argVector, argOffset_eq hn, pure_bind]
  exact vector_quiet (parm_lt hw hn)

theorem argBytes_quiet {n : Nat} (hn : n < 8) : Quiet m₀ (argBytes n) :=
  (argWord_quiet hw hn).bind fun _ => string_quiet _

theorem argText_quiet {n : Nat} (hn : n < 8) : Quiet m₀ (argText n) :=
  (argBytes_quiet hw hn).bind fun _ => .pure _

theorem concatArgs_quiet {ns : List Nat} (h : ∀ n ∈ ns, n < 8) : Quiet m₀ (concatArgs ns) := by
  induction ns with
  | nil => exact .pure _
  | cons n ns ih =>
    refine (argBytes_quiet hw (h n (List.mem_cons_self))).bind fun _ => ?_
    exact (ih fun k hk => h k (List.mem_cons_of_mem _ hk)).bind fun _ => .pure _

theorem argsFrom_quiet (start : Nat) : Quiet m₀ (argsFrom start) := by
  refine Quiet.get.bind fun m => concatArgs_quiet hw fun n hn => ?_
  rw [List.mem_range'_1] at hn
  have : min m.argc Global.maxParms ≤ 8 := Nat.min_le_right _ _
  omega

theorem returned_lt : Global.returned + 3 ≤ m₀.globals.size := by
  simp only [Global.count, Global.returned] at hw ⊢
  omega

theorem returnWord_quiet (w : Word) : Quiet m₀ (returnWord w) :=
  setWord_quiet (Nat.lt_of_lt_of_le (by decide) (returned_lt hw))

theorem returnFloat_quiet (x : Single) : Quiet m₀ (returnFloat x) :=
  returnWord_quiet hw _

theorem returnVector_quiet (v : Vec3) : Quiet m₀ (returnVector v) := setVector_quiet (returned_lt hw)

theorem returnTemp_quiet (s : Bytes) : Quiet m₀ (returnTemp s) :=
  (temp_quiet s).bind fun _ => returnWord_quiet hw _

theorem returnOf_quiet (f : Single → Single) : Quiet m₀ (returnOf f) :=
  (argFloat_quiet hw (by decide)).bind fun _ => returnFloat_quiet hw _

/-! ## 2. The builtins with a body of their own. -/

theorem makeVectors_quiet : Quiet m₀ makeVectors := by
  have hsize : 92 ≤ m₀.globals.size := hw
  refine (argVector_quiet hw (by decide)).bind fun _ => ?_
  refine (setVector_quiet ?_).bind fun _ => (setVector_quiet ?_).bind fun _ => setVector_quiet ?_
  all_goals
    simp only [Global.vForward, Global.vRight, Global.vUp]
    omega

theorem find_quiet : Quiet m₀ find := by
  refine (argWord_quiet hw (by decide)).bind fun _ => (argWord_quiet hw (by decide)).bind fun _ => ?_
  refine (argWord_quiet hw (by decide)).bind fun _ => .ite (fun _ => .fail trivial) fun _ => ?_
  exact (string_quiet _).bind fun _ => Quiet.get.bind fun _ => returnWord_quiet hw _

theorem raise_quiet : Quiet m₀ raise := by
  refine (argsFrom_quiet hw 0).bind fun _ => Quiet.get.bind fun _ => ?_
  exact (tell_quiet _).bind fun _ => .fail trivial

theorem raiseObject_quiet : Quiet m₀ raiseObject := by
  refine (argsFrom_quiet hw 0).bind fun _ => Quiet.get.bind fun m => ?_
  refine (dump_quiet _).bind fun _ => (tell_quiet _).bind fun _ => ?_
  exact .ite (fun _ => (remove_quiet _).bind fun _ => .fail trivial) fun _ => .fail trivial

theorem cvar_quiet : Quiet m₀ cvar := by
  refine (argText_quiet hw (by decide)).bind fun _ => (tell_quiet _).bind fun _ => ?_
  exact Quiet.get.bind fun _ => returnFloat_quiet hw _

/-- **Every builtin of the engine is quiet.** -/
theorem core_quiet (b : CoreBuiltin) : Quiet m₀ (core b) := by
  have h0 : 0 < 8 := by decide
  have h1 : 1 < 8 := by decide
  have h2 : 2 < 8 := by decide
  cases b with
  | makevectors => exact makeVectors_quiet hw
  | random => exact (draw_quiet).bind fun _ => returnFloat_quiet hw _
  | normalize => exact (argVector_quiet hw h0).bind fun _ => returnVector_quiet hw _
  | vlen => exact (argVector_quiet hw h0).bind fun _ => returnFloat_quiet hw _
  | vectoyaw => exact (argVector_quiet hw h0).bind fun _ => returnFloat_quiet hw _
  | vectoangles => exact (argVector_quiet hw h0).bind fun _ => returnVector_quiet hw _
  | rint => exact returnOf_quiet hw _
  | floor => exact returnOf_quiet hw _
  | ceil => exact returnOf_quiet hw _
  | fabs => exact returnOf_quiet hw _
  | sin => exact returnOf_quiet hw _
  | cos => exact returnOf_quiet hw _
  | sqrt => exact returnOf_quiet hw _
  | pow =>
    exact (argFloat_quiet hw h0).bind fun _ => (argFloat_quiet hw h1).bind fun _ => returnFloat_quiet hw _
  | ftos => exact (argFloat_quiet hw h0).bind fun _ => returnTemp_quiet hw _
  | vtos => exact (argVector_quiet hw h0).bind fun _ => returnTemp_quiet hw _
  | stof => exact (argText_quiet hw h0).bind fun _ => returnFloat_quiet hw _
  | strlen => exact (argBytes_quiet hw h0).bind fun _ => returnFloat_quiet hw _
  | strcat => exact (argsFrom_quiet hw 0).bind fun _ => returnTemp_quiet hw _
  | substring =>
    refine (argFloat_quiet hw h1).bind fun _ => (argFloat_quiet hw h2).bind fun _ => ?_
    exact (argBytes_quiet hw h0).bind fun _ => returnTemp_quiet hw _
  | spawn => exact spawn_quiet.bind fun _ => returnWord_quiet hw _
  | remove => exact (argWord_quiet hw h0).bind fun _ => remove_quiet _
  | find => exact find_quiet hw
  | nextent =>
    exact (argWord_quiet hw h0).bind fun _ => Quiet.get.bind fun _ => returnWord_quiet hw _
  | eprint =>
    exact (argWord_quiet hw h0).bind fun _ => (dump_quiet _).bind fun _ => tell_quiet _
  | coredump => exact coredump_quiet
  | error => exact raise_quiet hw
  | objerror => exact raiseObject_quiet hw
  | dprint => exact (argsFrom_quiet hw 0).bind fun _ => tell_quiet _
  | traceon => exact setTrace_quiet true
  | traceoff => exact setTrace_quiet false
  | cvar => exact cvar_quiet hw
  | checkextension =>
    exact (argText_quiet hw h0).bind fun _ => Quiet.get.bind fun _ => returnFloat_quiet hw _
  | builtinFind =>
    exact (argText_quiet hw h0).bind fun _ => Quiet.get.bind fun _ => returnFloat_quiet hw _

end Arguments

end Engine

/-! ## 3. From the registry to the table. -/

/-- Every registered builtin satisfies `P`. -/
def Registry.All (r : Registry) (P : Builtin → Prop) : Prop := ∀ b ∈ r.builtins, P b

/-- Every builtin in a slot satisfies `P`. -/
def SlotsAll (slots : Array (Option Builtin)) (P : Builtin → Prop) : Prop := ∀ b, some b ∈ slots → P b

def BuiltinTable.All (t : BuiltinTable) (P : Builtin → Prop) : Prop := SlotsAll t.slots P

/-- A builtin that is found lies in a slot. -/
theorem BuiltinTable.mem_of_lookup {t : BuiltinTable} {number : Nat} {b : Builtin}
    (h : t.lookup number = .ok (some b)) : some b ∈ t.slots := by
  unfold lookup at h
  split at h
  · next found =>
    cases h
    exact Array.mem_of_getElem? found
  · cases h

/-- A builtin of the engine. -/
def Builtin.IsCore (b : Builtin) : Prop := ∃ c, b.code = .core c

/-- Nothing but builtins of the engine is registered. -/
def Registry.OnlyCore (r : Registry) : Prop := r.All Builtin.IsCore

theorem Registry.All.register {P : Builtin → Prop} {r : Registry} (hr : r.All P) {b : Builtin}
    (hb : P b) : (r.register b).All P := by
  intro c hc
  unfold Registry.register at hc
  split at hc
  · rcases Array.mem_or_eq_of_mem_setIfInBounds hc with hc | rfl
    · exact hr c hc
    · exact hb
  · rcases Array.mem_push.mp hc with hc | rfl
    · exact hr c hc
    · exact hb

/-- The registry of the engine's own builtins. -/
theorem Registry.onlyCore_core : Registry.core.OnlyCore := by
  have empty : ({} : Registry).OnlyCore := fun b hb => absurd hb (Array.not_mem_empty b)
  unfold Registry.core Registry.addExtension
  dsimp only
  split <;> exact List.foldlRecOn CoreBuiltin.table _ empty fun r h x _ => h.register ⟨x.1, rfl⟩

theorem SlotsAll.set {P : Builtin → Prop} {slots : Array (Option Builtin)} (h : SlotsAll slots P)
    (i : Nat) {c : Builtin} (hc : P c) : SlotsAll (slots.setIfInBounds i (some c)) P := by
  intro b hb
  rcases Array.mem_or_eq_of_mem_setIfInBounds hb with hb | hb
  · exact h b hb
  · cases hb
    exact hc

theorem SlotsAll.empty (P : Builtin → Prop) (size : Nat) : SlotsAll (Array.replicate size none) P := by
  intro b hb
  simp [Array.mem_replicate] at hb

namespace BuiltinTable

variable {P : Builtin → Prop}

/-- The first pass takes its builtins from the registry by name. -/
theorem slotsAll_declared {r : Registry} (hr : r.All P) (fs : Array Function) {acc : Placing}
    (h : SlotsAll acc.slots P) : SlotsAll (fs.foldl (placeDeclared r) acc).slots P := by
  refine Array.foldl_induction (fun _ (p : Placing) => SlotsAll p.slots P) h ?_
  intro i acc h
  unfold placeDeclared
  split
  · next b _ hb =>
    split
    · exact h.set _ (hr b (Array.mem_of_find?_eq_some hb))
    · exact h
  · exact h

/-- The second pass goes through the registry itself. -/
theorem slotsAll_own {r : Registry} (hr : r.All P) (placed : List String)
    {slots : Array (Option Builtin)} (h : SlotsAll slots P) :
    SlotsAll (r.builtins.foldl (placeOwn placed) slots) P := by
  refine Array.foldl_induction (fun _ (s : Array (Option Builtin)) => SlotsAll s P) h ?_
  intro i slots h
  unfold placeOwn
  split
  · exact h
  · split
    · exact h.set _ (hr _ (Array.getElem_mem _))
    · exact h

/-- **A table holds nothing but what was registered.** -/
theorem all_build {r : Registry} (hr : r.All P) (p : Program) (numbering : Numbering) (size : Nat) :
    (build r p numbering size).All P := by
  refine slotsAll_own hr _ ?_
  cases numbering with
  | own => exact .empty P size
  | declared => exact slotsAll_declared hr p.functions (.empty P size)

end BuiltinTable

end QuakeProgs
