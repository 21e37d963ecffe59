/-
  File:      QuakeProgs/Profile.lean
  Subject:   COUNTERS: statements and calls, function by function.

  * `Profile` -- the counters; a function the program does not have is not counted;
  * `Profile.top` -- the busiest functions first.
-/
import QuakeProgs.Program

namespace QuakeProgs

/-- Statements and calls, by function number. -/
structure Profile where
  statements : Array Nat := #[]
  calls : Array Nat := #[]
  deriving DecidableEq, Inhabited

/-- The counters of one function. -/
structure ProfileEntry where
  function : FuncRef
  name : String
  statements : Nat
  calls : Nat
  deriving DecidableEq, Inhabited

namespace Profile

def new (functions : Nat) : Profile :=
  { statements := Array.replicate functions 0, calls := Array.replicate functions 0 }

/-- Counts a statement of a function. -/
def statement (p : Profile) (f : FuncRef) : Profile :=
  { p with statements := p.statements.modify f.toNat (· + 1) }

/-- Counts a call of a function. -/
def call (p : Profile) (f : FuncRef) : Profile :=
  { p with calls := p.calls.modify f.toNat (· + 1) }

def reset (p : Profile) : Profile :=
  { statements := p.statements.map fun _ => 0, calls := p.calls.map fun _ => 0 }

def total (p : Profile) : Nat := p.statements.foldl (· + ·) 0

/-- Whether one function comes before another: more statements first, then more calls, then the lower
    number. -/
def busier (a b : ProfileEntry) : Bool :=
  a.statements > b.statements ||
    (a.statements = b.statements &&
      (a.calls > b.calls || (a.calls = b.calls && a.function ≤ b.function)))

/-- The counters of the functions that ran. -/
def entries (p : Profile) (program : Program) : List ProfileEntry :=
  program.functions.toList.zipIdx.filterMap fun (f, i) =>
    let statements := p.statements.getD i 0
    let calls := p.calls.getD i 0
    if statements = 0 ∧ calls = 0 then none
    else some { function := i.toUInt32, name := f.name, statements, calls }

/-- The `n` busiest functions. -/
def top (p : Profile) (program : Program) (n : Nat) : List ProfileEntry :=
  ((p.entries program).mergeSort busier).take n

end Profile

end QuakeProgs
