/-
  File:      QuakeProgs/Machine/Step.lean
  Subject:   ONE STATEMENT: what each opcode does to a machine, and where control goes.

  * `FloatOp.apply`, `VectorOp.apply` -- arithmetic, comparison and logic on numbers;
  * `Flow` -- the statement after this one, a jump, a function entered or a function left;
  * `Engine.load`, `Engine.address`, `Engine.storeThrough`, `Engine.state` -- access to entities;
    while the world runs, no program writes to entity zero;
  * `Engine.enter`, `Engine.leave` -- a function's range of globals is saved, filled with the
    arguments and put back;
  * `Engine.step` -- one statement.
-/
import QuakeProgs.Machine.Engine

namespace QuakeProgs

/-! ## 1. Numbers. -/

/-- What an operation leaves. Comparison and logic leave one or zero; the bit operations work on whole
    parts as signed 32-bit numbers. -/
def FloatOp.apply (op : FloatOp) (x y : Single) : Single :=
  match op with
  | .mul => x * y
  | .div => x / y
  | .add => x + y
  | .sub => x - y
  | .eq => .ofBool (x.numEq y)
  | .ne => .ofBool (!x.numEq y)
  | .le => .ofBool (x.le y)
  | .ge => .ofBool (y.le x)
  | .lt => .ofBool (x.lt y)
  | .gt => .ofBool (y.lt x)
  | .and => .ofBool (x.truth && y.truth)
  | .or => .ofBool (x.truth || y.truth)
  | .bitAnd => .ofInt (Int32.ofInt x.toInt32 &&& Int32.ofInt y.toInt32).toInt
  | .bitOr => .ofInt (Int32.ofInt x.toInt32 ||| Int32.ofInt y.toInt32).toInt

def VectorOp.apply (op : VectorOp) (u v : Vec3) : Vec3 :=
  match op with
  | .add => u + v
  | .sub => u - v

/-- Where control goes after a statement. -/
inductive Flow where
  /-- To the statement after this one. -/
  | next
  /-- To a statement, which is a branch's target or a function's entry. -/
  | jump (pc : Nat)
  /-- Back to the caller, which waits at a statement. -/
  | returned (pc : Nat)
  deriving DecidableEq, Inhabited

namespace Engine

/-! ## 2. Entities. -/

/-- While the world runs, entity zero is read-only; images from the list of exceptions are not held
    to that. -/
def checkWorldWrite (id : EdictId) : Engine Unit := do
  let m ← get
  if id = 0 ∧ m.phase = .active ∧ ¬ m.legacy then fail .worldWrite

/-- Reads `n` words of a field into globals. -/
def load (a b c n : Nat) : Engine Unit := do
  let id ← word a
  let field ← word b
  let ws ← reads fun m => do (← m.edicts.get id).words field.toNat n
  write c ws.toList

/-- Makes a pointer to a field. -/
def address (a b c : Nat) : Engine Unit := do
  let id ← word a
  checkWorldWrite id
  let _ ← edict id
  let field ← word b
  let ptr ← reads fun m => FieldPointer.encode { edict := id, field := field.toNat } m.edicts.fieldWords
  setWord c ptr

/-- Writes `n` global words through a pointer. -/
def storeThrough (a b n : Nat) : Engine Unit := do
  let ptr ← word b
  let target ← reads fun m => FieldPointer.decode ptr m.edicts.fieldWords m.edicts.count
  checkWorldWrite target.edict
  let ws ← slice a n
  writeField target.edict target.field ws.toList

/-- How long an animation frame lasts. -/
def frameTime : Single := ⟨0x3dcccccd⟩

/-- Sets the time of the next think, the frame and the think function of `self`, each if the program
    has that field. -/
def state (a b : Nat) : Engine Unit := do
  let id ← word Global.self
  checkWorldWrite id
  let time ← float Global.time
  let frame ← word a
  let think ← word b
  let _ ← edict id
  let hot := (← get).hot
  let put (ofs : Option Nat) (w : Word) : Engine Unit :=
    match ofs with
    | some ofs => writeField id ofs [w]
    | none => pure ()
  put hot.nextthink (time + frameTime).bits
  put hot.frame frame
  put hot.think think

/-! ## 3. Control. -/

/-- Follows the branch at a statement. -/
def jump (pc : Nat) (st : Statement) : Engine Flow := do
  let count := (← get).program.statements.size
  let target := (st.target? pc).getD (-1)
  if 0 ≤ target ∧ target.toNat < count then return .jump target.toNat
  else fail (.badBranch pc target count)

/-- The function with a number; number zero stands for none. -/
def function (f : FuncRef) : Engine Function := do
  if f = 0 then fail .nullFunctionCall
  else
    let p := (← get).program
    match p.function? f with
    | some func => return func
    | none => fail (.functionOutOfRange f.toNat p.functions.size)

/-- Saves where the running function goes on. -/
def pushFrame : Engine Unit :=
  update (·.calls.checkRoom) fun _ m =>
    { m with calls := m.calls.add { statement := m.statement, function := m.current } }

/-- Saves a run of words. -/
def saveLocals (region : Array Word) : Engine Unit :=
  update (·.locals.checkRoom region.size) fun _ m => { m with locals := m.locals.append region }

/-- Copies one word after the other, so a word that was overwritten is copied as it is then. -/
def copyWords (src dst : Nat) : Nat → Engine Unit
  | 0 => return
  | n + 1 => do
    setWord dst (← word src)
    copyWords (src + 1) (dst + 1) n

/-- Copies arguments of the given sizes, from argument `i` on, to `dst` and after. -/
def copyArgs (i dst : Nat) : List Nat → Engine Unit
  | [] => return
  | size :: sizes => do
    copyWords (Global.parm i) dst size
    copyArgs (i + 1) (dst + size) sizes

/-- Enters bytecode and gives its entry: the return point is saved, then the words of its range, then
    the arguments are copied in. -/
def enter (f : FuncRef) : Engine Nat := do
  let func ← function f
  match func.codeStart? with
  | none => fail (.internal "entered a builtin as bytecode")
  | some entry =>
    pushFrame
    saveLocals (← slice func.parmStart func.locals)
    copyArgs 0 func.parmStart func.passedSizes
    modify fun m => { m with current := f, profile := m.profile.call f }
    return entry

/-- Takes the last `n` saved words off. -/
def loadLocals (n : Nat) : Engine (Array Word) :=
  update (·.locals.last n) fun _ m => { m with locals := m.locals.dropLast n }

/-- Takes the last return point off and makes its function the running one. -/
def popFrame : Engine Frame :=
  update (·.calls.last) fun frame m =>
    { m with calls := m.calls.dropLast, current := frame.function, statement := frame.statement }

/-- Leaves the running function: the words of its range are put back. Gives the statement that the
    caller waits at. -/
def leave : Engine Nat := do
  let m ← get
  match m.program.function? m.current with
  | none => fail .stackUnderflow
  | some func =>
    if m.calls.depth = 0 then fail .stackUnderflow
    else
      reads fun m => m.globals.check func.parmStart func.locals
      let region ← loadLocals func.locals
      write func.parmStart region.toList
      return (← popFrame).statement

/-- Moves the three words at `a` to the place of the return value; words past the end count as
    zero. -/
def returnWords (a : Nat) : Engine Unit := do
  let g := (← get).globals.words
  write Global.returned [g.getD a 0, g.getD (a + 1) 0, g.getD (a + 2) 0]

/-- Calls the builtin with a number; an empty slot returns zeros. -/
def callBuiltin (dispatch : Native → Engine Unit) (number : Nat) (f : FuncRef) : Engine Unit := do
  modify fun m => { m with profile := m.profile.call f }
  match ← reads fun m => m.builtins.lookup number with
  | some b => dispatch b.code
  | none => returnVector .zero

/-- Calls a function: a builtin runs at once, bytecode is entered. -/
def call (dispatch : Native → Engine Unit) (f : FuncRef) : Engine Flow := do
  let func ← function f
  match func.builtinNumber? with
  | some number =>
    callBuiltin dispatch number f
    return .next
  | none => return .jump (← enter f)

/-! ## 4. Statements. -/

/-- Whether two strings differ, and how. -/
def compareStrings (a b : Nat) : Engine Int := do
  let x ← word a
  let y ← word b
  reads fun m => m.strings.compare x.toRef y.toRef

/-- Whether a reference is none: the empty string, the world, no function. -/
def isNone (k : RefKind) (w : Word) : Engine Bool := do
  match k with
  | .string => return (← get).strings.isEmptyAt w.toRef
  | .entity | .function => return w = 0

/-- The statements that compute and move words; control goes on after them. -/
def compute (st : Statement) : Engine Unit := do
  let (a, b, c) := (st.ga, st.gb, st.gc)
  match st.op with
  | .float op => setFloat c (op.apply (← float a) (← float b))
  | .vector op => setVector c (op.apply (← vector a) (← vector b))
  | .dot => setFloat c ((← vector a).dot (← vector b))
  | .scaleLeft => setVector c (.scale (← float a) (← vector b))
  | .scaleRight =>
    let v ← vector a
    setVector c (.scale (← float b) v)
  | .eqVector => setFlag c ((← vector a).numEq (← vector b))
  | .neVector => setFlag c (!(← vector a).numEq (← vector b))
  | .eqRef .string => setFlag c ((← compareStrings a b) = 0)
  | .neRef .string => setFloat c (.ofInt (← compareStrings a b))
  | .eqRef _ => setFlag c ((← word a) = (← word b))
  | .neRef _ => setFlag c ((← word a) ≠ (← word b))
  | .notFloat => setFlag c (!(← float a).truth)
  | .notVector => setFlag c (← vector a).isZero
  | .notRef k => setFlag c (← isNone k (← word a))
  | .load s => load a b c s.words
  | .address => address a b c
  | .store s => write b (← slice a s.words).toList
  | .storeThrough s => storeThrough a b s.words
  | .state => state a b
  | .done | .ret | .branchIf | .branchIfNot | .goto | .call _ => return

/-- Runs the statement at `pc`. -/
def step (dispatch : Native → Engine Unit) (pc : Nat) (st : Statement) : Engine Flow := do
  match st.op with
  | .done | .ret =>
    returnWords st.ga
    return .returned (← leave)
  | .branchIf => if (← word st.ga) ≠ 0 then jump pc st else return .next
  | .branchIfNot => if (← word st.ga) = 0 then jump pc st else return .next
  | .goto => jump pc st
  | .call argc =>
    modify fun m => { m with argc := argc.val }
    call dispatch (← word st.ga)
  | _ =>
    compute st
    return .next

end Engine

end QuakeProgs
