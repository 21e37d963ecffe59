/-
  File:      QuakeProgs/Machine/Engine.lean
  Subject:   ACTIONS ON A MACHINE that may fail: what they changed before the failure stays.

  * `Engine` -- an action: from a machine to a result and the machine after it, error or not;
  * `Engine.update` -- a check, then a change that cannot fail: the shape of every change but that of
    `Engine.temp`, which fails when the text is in its slot already;
  * reading and writing globals, entities and strings;
  * the arguments and the result of a builtin;
  * operations for the host: named fields, spawning and removing entities.
-/
import QuakeProgs.Machine.State

namespace QuakeProgs

/-- An action on a machine. -/
abbrev Engine := EStateM Error Machine

namespace Engine

/-- Fails. -/
def fail (c : Cause) : Engine α := throw { cause := c }

/-- An action that only reads. -/
@[inline] def reads (f : Machine → Except Error α) : Engine α := fun m =>
  match f m with
  | .ok a => .ok a m
  | .error e => .error e m

/-- Changes a machine if a check of it passes. A machine that fails the check stays as it is. -/
@[inline] def update (check : Machine → Except Error α) (change : α → Machine → Machine) :
    Engine α := fun m =>
  match check m with
  | .ok a => .ok a (change a m)
  | .error e => .error e m

/-- Tells the host something. -/
def tell (e : Event) : Engine Unit := modify (·.tell e)

/-! ## 1. Globals. -/

def word (ofs : Nat) : Engine Word := reads fun m => m.globals.get ofs

def float (ofs : Nat) : Engine Single := reads fun m => m.globals.float ofs

def vector (ofs : Nat) : Engine Vec3 := reads fun m => m.globals.vector ofs

def slice (ofs n : Nat) : Engine (Array Word) := reads fun m => m.globals.slice ofs n

/-- Overwrites global words from `ofs` on. -/
def write (ofs : Nat) (ws : List Word) : Engine Unit :=
  update (·.globals.check ofs ws.length) fun _ m => { m with globals := m.globals.overwrite ofs ws }

def setWord (ofs : Nat) (w : Word) : Engine Unit := write ofs [w]

def setFloat (ofs : Nat) (x : Single) : Engine Unit := setWord ofs x.bits

def setVector (ofs : Nat) (v : Vec3) : Engine Unit := write ofs v.toWords

/-- Leaves one or zero. -/
def setFlag (ofs : Nat) (b : Bool) : Engine Unit := setWord ofs (Word.ofBool b)

/-- Writes a named global. -/
def setGlobal (name : String) (v : Value) : Engine Unit := do
  match (← get).program.findGlobal? name with
  | some d => write d.ofs v.toWords
  | none => fail (.missingSymbol name)

/-! ## 2. Entities. -/

def edict (id : EdictId) : Engine Edict := reads fun m => m.edicts.get id

/-- Overwrites field words of an entity. -/
def writeField (id : EdictId) (ofs : Nat) (ws : List Word) : Engine Unit :=
  update (·.edicts.checkWrite id ofs ws.length) fun _ m =>
    { m with edicts := m.edicts.overwrite id ofs ws }

/-- Where a named field lies. -/
def fieldOffset? (name : String) : Engine (Option Nat) :=
  modifyGet fun m =>
    let (ofs, cache) := m.fieldCache.lookup m.program name
    (ofs, { m with fieldCache := cache })

/-- A named field of an entity; none if the program has no such field. -/
def field (id : EdictId) (name : String) (type : ValueType) : Engine (Option Value) := do
  match ← fieldOffset? name with
  | none => return none
  | some ofs => return some (← reads fun m => do (← m.edicts.get id).value ofs type)

/-- Writes a named field of an entity; false if the program has no such field. -/
def setField (id : EdictId) (name : String) (v : Value) : Engine Bool := do
  match ← fieldOffset? name with
  | none => return false
  | some ofs =>
    writeField id ofs v.toWords
    return true

/-- Hands out an entity at the present time. -/
def spawn : Engine EdictId := do
  let i ← update (fun m => m.edicts.vacancy m.time) fun i m => { m with edicts := m.edicts.occupy i }
  return i.toUInt32

/-- Frees an entity at the present time; the host is told before. -/
def remove (id : EdictId) : Engine Unit := do
  let _ ← edict id
  tell (.unlink id)
  let time := (← get).time
  update (·.edicts.checkRelease id) fun _ m => { m with edicts := m.edicts.free id time }

/-! ## 3. Strings. -/

def string (r : StringRef) : Engine Bytes := reads fun m => m.strings.get r

/-- Keeps a text for good. -/
def keep (s : Bytes) : Engine StringRef :=
  update (·.strings.keptRef s) fun _ m => { m with strings := m.strings.addKept s }

/-- Puts a text into the ring. The slot is written first, and only then is a reference asked for. -/
def temp (s : Bytes) : Engine StringRef := do
  let placed := (← get).strings.tempRef s
  modify fun m => { m with strings := m.strings.putTemp s }
  reads fun _ => placed

/-! ## 4. Arguments and results of builtins. -/

/-- Where argument `n` lies; there are eight. -/
def argOffset (n : Nat) : Engine Nat :=
  if n ≥ Global.maxParms then fail (.badGlobal (Global.parm n) Global.parmsEnd)
  else pure (Global.parm n)

def argWord (n : Nat) : Engine Word := do word (← argOffset n)

def argFloat (n : Nat) : Engine Single := do float (← argOffset n)

def argVector (n : Nat) : Engine Vec3 := do vector (← argOffset n)

/-- The bytes of a string argument. -/
def argBytes (n : Nat) : Engine Bytes := do string (← argWord n).toRef

/-- A string argument as text. -/
def argText (n : Nat) : Engine String := do return Utf8.toText (← argBytes n)

/-- The string arguments with these numbers, joined. -/
def concatArgs : List Nat → Engine Bytes
  | [] => return []
  | n :: ns => do
    let s ← argBytes n
    let rest ← concatArgs ns
    return s ++ rest

/-- The string arguments from number `start` on, joined. -/
def argsFrom (start : Nat) : Engine Bytes := do
  let n := min (← get).argc Global.maxParms
  concatArgs (List.range' start (n - start))

def returnFloat (x : Single) : Engine Unit := setFloat Global.returned x

def returnVector (v : Vec3) : Engine Unit := setVector Global.returned v

def returnWord (w : Word) : Engine Unit := setWord Global.returned w

/-- Returns a text through the ring. -/
def returnTemp (s : Bytes) : Engine Unit := do returnWord (Word.ofRef (← temp s))

end Engine

end QuakeProgs
