/-
  File:      QuakeProgs/Proofs/Machine/Blindness.lean
  Subject:   WHAT BUILTINS AND STATEMENTS DO NOT SEE.

  Machines that are alike under a comparison show code the same, and code keeps them alike. So no builtin and no
  statement can tell them apart: not by counters or the cache, nor by where a statement stands, nor by the trace,
  nor by the batch in which an entity lies.

  * `Unreported` -- no check of the stacks and the table of builtins fails with an error that was reported before;
  * `Comparison.keptAlike` -- code keeps machines alike;
  * `Engine.core_blind`, `Engine.compute_blind` -- no builtin of the engine can tell them apart, and no statement
    that computes.
-/
import QuakeProgs.Proofs.Machine.Uniformity

namespace QuakeProgs

/-! ## 1. No check has reported anything. -/

section Unreported

variable {α : Type}

theorem PlainlyFails.unreported {x : Except Error α} (h : PlainlyFails x) : Unreported x :=
  fun e he => (h e he).context

theorem Unreported.ok (a : α) : Unreported (.ok a : Except Error α) := nofun

theorem Unreported.cause (c : Cause) : Unreported (.error { cause := c } : Except Error α) := by
  intro e he
  cases he
  rfl

theorem Unreported.ite {c : Prop} [Decidable c] {x y : Except Error α} (hx : Unreported x)
    (hy : Unreported y) : Unreported (if c then x else y) := by
  split
  · exact hx
  · exact hy

theorem GlobalBlock.check_unreported (g : GlobalBlock) (ofs n : Nat) : Unreported (g.check ofs n) :=
  (g.check_plain ofs n).unreported

theorem BuiltinTable.lookup_unreported (t : BuiltinTable) (number : Nat) : Unreported (t.lookup number) :=
  (t.lookup_plain number).unreported

theorem CallStack.checkRoom_unreported (s : CallStack) : Unreported s.checkRoom := .ite (.cause _) (.ok _)

theorem CallStack.last_unreported (s : CallStack) : Unreported s.last := s.last_plain.unreported

theorem LocalStack.checkRoom_unreported (s : LocalStack) (n : Nat) : Unreported (s.checkRoom n) :=
  .ite (.cause _) (.ok _)

theorem LocalStack.last_unreported (s : LocalStack) (n : Nat) : Unreported (s.last n) := (s.last_plain n).unreported

end Unreported

/-! ## 2. Machines that are alike stay alike. -/

/-- **Code keeps machines alike**, whatever is compared that code keeps of each. -/
theorem Comparison.keptAlike {v : Comparison} (durable : Durable v.inv) : KeptAlike v.Alike where
  program h := h.program
  registry h := h.registry
  builtins h := h.builtins
  hot h := h.hot
  phase h := h.phase
  legacy h := h.legacy
  current h := h.current
  strings h := h.strings
  globals h := h.globals
  edicts h := h.edicts.imp id fun scattered => ⟨trivial, scattered.2⟩
  answer h := h.host.answer
  setGlobals _ h := h.setGlobals durable rfl
  setTexts c h := h.setTexts durable c
  setStore c h := h.setStore durable c
  setRandom f h := h.setRandom durable f
  setTracing on h := h.setTracing durable on
  tell quiet h := h.tell (durable.tell quiet h.left) (durable.tell quiet h.right)

namespace Engine

variable {v : Comparison}

theorem Uniform.blind {α : Type} {act : Engine α} (h : Uniform v.Alike Error.Plain act) : Blind v act :=
  h.mono fun _ plain => plain.context

theorem word_blind (ofs : Nat) : Blind v (word ofs) :=
  .reads (fun _ _ h => by rw [h.globals]) fun m => (m.globals.get_plain ofs).unreported

theorem slice_blind (ofs n : Nat) : Blind v (slice ofs n) :=
  .reads (fun _ _ h => by rw [h.globals]) fun m => (m.globals.slice_plain ofs n).unreported

theorem argWord_blind (n : Nat) : Blind v (argWord n) := (argOffset_steady n).blind.bind word_blind

section Changing

variable (durable : Durable v.inv)
include durable

theorem write_blind (ofs : Nat) (ws : List Word) : Blind v (write ofs ws) :=
  (write_steady (v.keptAlike durable) ofs ws).blind

theorem setWord_blind (ofs : Nat) (w : Word) : Blind v (setWord ofs w) := write_blind durable ofs [w]

theorem returnFloat_blind (x : Single) : Blind v (returnFloat x) := setWord_blind durable _ _

theorem returnVector_blind (x : Vec3) : Blind v (returnVector x) := write_blind durable _ _

/-- **No builtin of the engine can tell the two apart**, but for the one that draws. -/
theorem core_blind (counted : v.counted) (b : CoreBuiltin) (drawn : v.drawn ∨ b ≠ .random) :
    Blind v (core b) :=
  (core_steady (v.keptAlike durable) (fun _ _ h => h.argc counted) b
    (drawn.imp_left fun drawn _ _ h => h.random drawn)).blind

/-- **No statement that computes can tell the two apart.** -/
theorem compute_blind (st : Statement) : Blind v (compute st) := (compute_steady (v.keptAlike durable) st).blind

end Changing

end Engine

end QuakeProgs
