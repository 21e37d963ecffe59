/-
  File:      QuakeProgs/CallStack.lean
  Subject:   THE TWO STACKS OF A RUN: return points, and the words that calls overwrite.

  The parameters and locals of a function lie in the global block, so entering a function overwrites
  what its range held. Those words are saved on entry and put back on return.

  * `CallStack` -- return points, up to a limit;
  * `LocalStack` -- saved words, up to a capacity; both grow at the end.

  Every change has two halves, a check that may fail and a change that cannot: who holds a stack inside
  a larger value checks it there and changes it in place.
-/
import QuakeProgs.Error

namespace QuakeProgs

/-- Where a function goes on after a call. -/
structure Frame where
  /-- The call that is waited for. -/
  statement : Nat
  /-- The function that made the call. -/
  function : FuncRef
  deriving DecidableEq, Inhabited

/-- The return points, outermost first. -/
structure CallStack where
  frames : Array Frame := #[]
  limit : Nat
  deriving DecidableEq, Inhabited

namespace CallStack

def depth (s : CallStack) : Nat := s.frames.size

/-- Whether there is room for one more return point. -/
def checkRoom (s : CallStack) : Except Error Unit :=
  if s.depth ≥ s.limit then .error (Cause.stackOverflow s.limit) else .ok ()

/-- Adds a return point, for which there is room. -/
def add (s : CallStack) (f : Frame) : CallStack := { s with frames := s.frames.push f }

def push (s : CallStack) (f : Frame) : Except Error CallStack := do
  s.checkRoom
  return s.add f

/-- The return point added last. -/
def last (s : CallStack) : Except Error Frame :=
  match s.frames.back? with
  | some f => .ok f
  | none => .error Cause.stackUnderflow

/-- Drops the return point added last. -/
def dropLast (s : CallStack) : CallStack := { s with frames := s.frames.pop }

def pop (s : CallStack) : Except Error (Frame × CallStack) := do
  let f ← s.last
  return (f, s.dropLast)

def clear (s : CallStack) : CallStack := { s with frames := #[] }

end CallStack

/-- The saved words. -/
structure LocalStack where
  words : Array Word := #[]
  capacity : Nat
  deriving DecidableEq, Inhabited

namespace LocalStack

def used (s : LocalStack) : Nat := s.words.size

/-- Whether there is room for `n` more words. -/
def checkRoom (s : LocalStack) (n : Nat) : Except Error Unit :=
  if s.used + n > s.capacity then .error (Cause.localStackOverflow n s.used s.capacity) else .ok ()

/-- Adds a run of words, for which there is room. -/
def append (s : LocalStack) (region : Array Word) : LocalStack := { s with words := s.words ++ region }

/-- Saves a run of words. -/
def save (s : LocalStack) (region : Array Word) : Except Error LocalStack := do
  s.checkRoom region.size
  return s.append region

/-- The last `n` words. -/
def last (s : LocalStack) (n : Nat) : Except Error (Array Word) :=
  if n > s.used then .error Cause.localStackUnderflow else .ok (s.words.extract (s.used - n) s.used)

/-- Drops the last `n` words. -/
def dropLast (s : LocalStack) (n : Nat) : LocalStack := { s with words := s.words.shrink (s.used - n) }

/-- Takes the last `n` words off. -/
def load (s : LocalStack) (n : Nat) : Except Error (Array Word × LocalStack) := do
  let region ← s.last n
  return (region, s.dropLast n)

def clear (s : LocalStack) : LocalStack := { s with words := #[] }

end LocalStack

end QuakeProgs
