/-
  File:      QuakeProgs/Builtin/Core.lean
  Subject:   THE ENGINE'S OWN BUILTINS.

  Arguments come from the parameter globals and the result goes to the return global; texts are
  returned through the ring of short-lived strings.

  * `Engine.nextLive` -- scanning the entities after a given one;
  * `Engine.raise`, `Engine.raiseObject` -- a program giving up;
  * `Engine.core` -- what each builtin does.
-/
import QuakeProgs.Builtin.Numeric
import QuakeProgs.Builtin.Text
import QuakeProgs.Machine.Engine

namespace QuakeProgs

namespace Engine

/-! ## 1. Numbers. -/

/-- Returns a function of the first argument. -/
def returnOf (f : Single → Single) : Engine Unit := do returnFloat (f (← argFloat 0))

/-- Sets the three direction globals from a triple of angles. -/
def makeVectors : Engine Unit := do
  let v := AngleVectors.ofAngles (← argVector 0)
  setVector Global.vForward v.forward
  setVector Global.vRight v.right
  setVector Global.vUp v.up

/-- Draws a random number between zero and one. -/
def draw : Engine Single :=
  modifyGet fun m =>
    let (w, random) := m.random.next
    (Single.ofDraw w, { m with random })

/-! ## 2. Entities. -/

/-- The first live entity after `start` that satisfies `p`, or the world. -/
def nextLive (m : Machine) (start : EdictId) (p : Edict → Bool) : EdictId :=
  let first := start.toNat + 1
  let found := m.edicts.search (fun e => !e.free && p e) first (m.edicts.inUse - first)
  (found.getD 0).toUInt32

/-- Whether a field refers to a string with the wanted bytes; the null reference matches nothing. -/
def fieldHolds (strings : StringTable) (field : Nat) (wanted : Bytes) (e : Edict) : Bool :=
  match e.word field with
  | .error _ => false
  | .ok w =>
    w ≠ 0 && match strings.get w.toRef with
      | .ok s => s = wanted
      | .error _ => false

/-- Returns the next live entity whose field holds a string. -/
def find : Engine Unit := do
  let start ← argWord 0
  let field ← argWord 1
  let wanted ← argWord 2
  if wanted = 0 then fail (.programError "find: bad search string")
  else
    let wanted ← string wanted.toRef
    let m ← get
    returnWord (nextLive m start (fieldHolds m.strings field.toNat wanted))

/-- The fields of an entity as text. -/
def dump (id : EdictId) : Engine String := do
  let e ← edict id
  return (← get).view.dump id.toNat e

/-- Prints the fields of every live entity. -/
def coredump : Engine Unit := do
  let m ← get
  for (i, e) in m.edicts.liveEdicts do
    tell (.print (m.view.dump i e))

/-! ## 3. The console. -/

/-- The name of the running function. -/
def currentName (m : Machine) : String :=
  match m.program.function? m.current with
  | some f => f.name
  | none => "<NO FUNCTION>"

/-- Prints a message and gives up. -/
def raise : Engine Unit := do
  let message := Utf8.toText (← argsFrom 0)
  tell (.print s!"======SERVER ERROR in {currentName (← get)}:\n{message}\n")
  fail (.programError message)

/-- Prints a message with the fields of `self`, frees it unless it is the world, and gives up. -/
def raiseObject : Engine Unit := do
  let message := Utf8.toText (← argsFrom 0)
  let m ← get
  let id := m.selfEdict
  let fields ← dump id
  tell (.print s!"======OBJECT ERROR in {currentName m}:\n{message}\n{fields}")
  if id ≠ 0 then remove id
  fail (.programError message)

/-- Asks the host for a console variable; an unknown one is zero. -/
def cvar : Engine Unit := do
  let name ← argText 0
  tell (.cvar name)
  let host := (← get).host
  returnFloat ((host.answer host.events name).getD .zero)

/-- Switches the trace of statements. -/
def setTrace (on : Bool) : Engine Unit := modify fun m => { m with tracing := on }

/-! ## 4. The builtins. -/

/-- What a builtin does. -/
def core : CoreBuiltin → Engine Unit
  | .makevectors => makeVectors
  | .random => do returnFloat (← draw)
  | .normalize => do returnVector (← argVector 0).normalize
  | .vlen => do returnFloat (← argVector 0).length
  | .vectoyaw => do returnFloat (← argVector 0).yaw
  | .vectoangles => do returnVector (← argVector 0).angles
  | .rint => returnOf .rint
  | .floor => returnOf .floor
  | .ceil => returnOf .ceil
  | .fabs => returnOf .abs
  | .sin => returnOf .sin
  | .cos => returnOf .cos
  | .sqrt => returnOf .sqrt
  | .pow => do returnFloat (.pow (← argFloat 0) (← argFloat 1))
  | .ftos => do returnTemp (Utf8.encode (← argFloat 0).console)
  | .vtos => do returnTemp (Utf8.encode (← argVector 0).columns)
  | .stof => do returnFloat (.ofLeading (← argText 0))
  | .strlen => do returnFloat (.ofNat (← argBytes 0).length)
  | .strcat => do returnTemp (← argsFrom 0)
  | .substring => do
    let start ← argFloat 1
    let length ← argFloat 2
    returnTemp ((← argBytes 0).piece start length)
  | .spawn => do returnWord (← spawn)
  | .remove => do remove (← argWord 0)
  | .find => find
  | .nextent => do
    let start ← argWord 0
    returnWord (nextLive (← get) start fun _ => true)
  | .eprint => do tell (.print (← dump (← argWord 0)))
  | .coredump => coredump
  | .error => raise
  | .objerror => raiseObject
  | .dprint => do tell (.dprint (Utf8.toText (← argsFrom 0)))
  | .traceon => setTrace true
  | .traceoff => setTrace false
  | .cvar => cvar
  | .checkextension => do
    let name ← argText 0
    returnFloat (.ofBool ((← get).registry.supports name))
  | .builtinFind => do
    let name ← argText 0
    returnFloat (.ofNat (((← get).builtins.numberOf? name).getD 0))

end Engine

end QuakeProgs
