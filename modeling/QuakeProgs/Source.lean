/-
  File:      QuakeProgs/Source.lean
  Subject:   WHERE IMAGES COME FROM: files in memory, or files below a directory.

  * `Source` -- fetches the bytes behind a name, in any monad;
  * `Source.memory`, `Source.directory` -- the second refuses names that lead out of the directory;
  * `Source.fetchFirst` -- a replacement if it can be fetched, else the name itself.
-/
import QuakeProgs.Error
import QuakeProgs.Files

namespace QuakeProgs

/-- Fetches bytes by name. -/
structure Source (m : Type → Type) where
  fetch : String → m (Except Error Bytes)

namespace Source

variable {m : Type → Type} [Monad m]

/-- Files held in memory. -/
def memory (files : List (String × Bytes)) : Source m where
  fetch name := pure <| match files.lookup name with
    | some bytes => .ok bytes
    | none => .error (Cause.io s!"{name}: not found")

/-- Files below a directory. -/
def directory (files : Files m) (root : String) : Source m where
  fetch name := do
    if Path.escapes name then return .error (Cause.io s!"{name}: path escapes content root")
    else match ← files.read (Path.join root name) with
      | .ok bytes => return .ok bytes
      | .error fault => return .error (Cause.io s!"{name}: {fault.text}")

/-- Fetches a replacement, if one is named and can be fetched, else the name itself. -/
def fetchFirst (s : Source m) (name : String) (replacement : Option String) : m (Except Error Bytes) := do
  match replacement.filter (· ≠ "") with
  | none => s.fetch name
  | some alt =>
    match ← s.fetch alt with
    | .ok bytes => return .ok bytes
    | .error _ => s.fetch name

end Source

end QuakeProgs
