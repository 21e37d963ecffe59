/-
  File:      QuakeProgs/Opcode.lean
  Subject:   THE INSTRUCTION SET: opcodes by family, and statements.

  The 66 opcodes fall into families that share their operands and differ in one choice: an
  arithmetic operation, the kind of slot that is moved, the number of arguments of a call.

  * `Opcode` -- the families; `Opcode.table` lists all opcodes in the order of their numbers;
  * `Opcode.ofNumber?`, `Opcode.number` -- between opcodes and the numbers an image stores;
  * `Opcode.operands` -- how each of the three operands is used;
  * `Statement` -- an opcode with three 16-bit operands, which are offsets of globals or, in a
    branch, a signed distance.
-/
import QuakeProgs.Word

namespace QuakeProgs

/-- Operations on two floats that leave a float. -/
inductive FloatOp where
  | mul | div | add | sub | eq | ne | le | ge | lt | gt | and | or | bitAnd | bitOr
  deriving DecidableEq

/-- Operations on two vectors that leave a vector. -/
inductive VectorOp where
  | add | sub
  deriving DecidableEq

/-- What a single word can refer to. -/
inductive RefKind where
  | string | entity | function
  deriving DecidableEq

/-- What a move carries: a vector takes three words, all else one. -/
inductive Slot where
  | float | vector | string | entity | field | function
  deriving DecidableEq

/-- The words a move carries. -/
def Slot.words : Slot → Nat
  | .vector => 3
  | _ => 1

/-- An opcode. -/
inductive Opcode where
  /-- Leaves the function, like `ret`; also ends a function without a `ret`. -/
  | done
  /-- Leaves the function with the three words at the operand. -/
  | ret
  | float (op : FloatOp)
  | vector (op : VectorOp)
  /-- The inner product of two vectors. -/
  | dot
  /-- A float times a vector. -/
  | scaleLeft
  /-- A vector times a float. -/
  | scaleRight
  | eqVector
  | neVector
  | eqRef (k : RefKind)
  | neRef (k : RefKind)
  /-- Reads a field of an entity. -/
  | load (s : Slot)
  /-- Makes a pointer to a field of an entity. -/
  | address
  /-- Copies between globals. -/
  | store (s : Slot)
  /-- Writes through a pointer. -/
  | storeThrough (s : Slot)
  | notFloat
  | notVector
  | notRef (k : RefKind)
  | branchIf
  | branchIfNot
  | goto
  | call (argc : Fin 9)
  /-- Sets the frame, the think function and the time of the next think of `self`. -/
  | state
  deriving DecidableEq

/-- How an operand is used. -/
inductive Operand where
  | unused
  /-- The offset of a run of global words. -/
  | global (words : Nat)
  /-- A distance in statements. -/
  | branch
  deriving DecidableEq

def Operand.text : Operand → String
  | .unused => "Unused"
  | .global n => s!"Global({n})"
  | .branch => "Branch"

namespace Opcode

/-- All opcodes, each at the place of its number. -/
def table : List Opcode :=
  [.done, .float .mul, .dot, .scaleLeft, .scaleRight, .float .div, .float .add, .vector .add,
   .float .sub, .vector .sub,
   .float .eq, .eqVector, .eqRef .string, .eqRef .entity, .eqRef .function,
   .float .ne, .neVector, .neRef .string, .neRef .entity, .neRef .function,
   .float .le, .float .ge, .float .lt, .float .gt,
   .load .float, .load .vector, .load .string, .load .entity, .load .field, .load .function,
   .address,
   .store .float, .store .vector, .store .string, .store .entity, .store .field, .store .function,
   .storeThrough .float, .storeThrough .vector, .storeThrough .string, .storeThrough .entity,
   .storeThrough .field, .storeThrough .function,
   .ret, .notFloat, .notVector, .notRef .string, .notRef .entity, .notRef .function,
   .branchIf, .branchIfNot,
   .call 0, .call 1, .call 2, .call 3, .call 4, .call 5, .call 6, .call 7, .call 8,
   .state, .goto, .float .and, .float .or, .float .bitAnd, .float .bitOr]

/-- The opcode with a stored number. -/
def ofNumber? (n : Nat) : Option Opcode := table[n]?

/-- The number an image stores for an opcode. -/
def number : Opcode → Nat
  | .done => 0
  | .float .mul => 1 | .dot => 2 | .scaleLeft => 3 | .scaleRight => 4 | .float .div => 5
  | .float .add => 6 | .vector .add => 7 | .float .sub => 8 | .vector .sub => 9
  | .float .eq => 10 | .eqVector => 11 | .eqRef .string => 12 | .eqRef .entity => 13
  | .eqRef .function => 14
  | .float .ne => 15 | .neVector => 16 | .neRef .string => 17 | .neRef .entity => 18
  | .neRef .function => 19
  | .float .le => 20 | .float .ge => 21 | .float .lt => 22 | .float .gt => 23
  | .load .float => 24 | .load .vector => 25 | .load .string => 26 | .load .entity => 27
  | .load .field => 28 | .load .function => 29
  | .address => 30
  | .store .float => 31 | .store .vector => 32 | .store .string => 33 | .store .entity => 34
  | .store .field => 35 | .store .function => 36
  | .storeThrough .float => 37 | .storeThrough .vector => 38 | .storeThrough .string => 39
  | .storeThrough .entity => 40 | .storeThrough .field => 41 | .storeThrough .function => 42
  | .ret => 43 | .notFloat => 44 | .notVector => 45 | .notRef .string => 46
  | .notRef .entity => 47 | .notRef .function => 48
  | .branchIf => 49 | .branchIfNot => 50
  | .call argc => 51 + argc.val
  | .state => 60 | .goto => 61
  | .float .and => 62 | .float .or => 63 | .float .bitAnd => 64 | .float .bitOr => 65

/-- The name of an opcode in listings. -/
def mnemonic : Opcode → String
  | .done => "DONE"
  | .float .mul => "MUL_F" | .dot => "MUL_V" | .scaleLeft => "MUL_FV" | .scaleRight => "MUL_VF"
  | .float .div => "DIV" | .float .add => "ADD_F" | .vector .add => "ADD_V"
  | .float .sub => "SUB_F" | .vector .sub => "SUB_V"
  | .float .eq => "EQ_F" | .eqVector => "EQ_V" | .eqRef .string => "EQ_S"
  | .eqRef .entity => "EQ_E" | .eqRef .function => "EQ_FNC"
  | .float .ne => "NE_F" | .neVector => "NE_V" | .neRef .string => "NE_S"
  | .neRef .entity => "NE_E" | .neRef .function => "NE_FNC"
  | .float .le => "LE" | .float .ge => "GE" | .float .lt => "LT" | .float .gt => "GT"
  | .load .float => "INDIRECT" | .load .vector => "INDIRECT_V" | .load .string => "INDIRECT_S"
  | .load .entity => "INDIRECT_E" | .load .field => "INDIRECT_FI"
  | .load .function => "INDIRECT_FU"
  | .address => "ADDRESS"
  | .store .float => "STORE_F" | .store .vector => "STORE_V" | .store .string => "STORE_S"
  | .store .entity => "STORE_ENT" | .store .field => "STORE_FLD"
  | .store .function => "STORE_FNC"
  | .storeThrough .float => "STOREP_F" | .storeThrough .vector => "STOREP_V"
  | .storeThrough .string => "STOREP_S" | .storeThrough .entity => "STOREP_ENT"
  | .storeThrough .field => "STOREP_FLD" | .storeThrough .function => "STOREP_FNC"
  | .ret => "RETURN" | .notFloat => "NOT_F" | .notVector => "NOT_V" | .notRef .string => "NOT_S"
  | .notRef .entity => "NOT_ENT" | .notRef .function => "NOT_FNC"
  | .branchIf => "IF" | .branchIfNot => "IFNOT"
  | .call argc => s!"CALL{argc.val}"
  | .state => "STATE" | .goto => "GOTO"
  | .float .and => "AND" | .float .or => "OR" | .float .bitAnd => "BITAND"
  | .float .bitOr => "BITOR"

def ofMnemonic? (s : String) : Option Opcode := table.find? (·.mnemonic = s)

/-- How the operands `a`, `b` and `c` are used. -/
def operands : Opcode → Operand × Operand × Operand
  | .done | .ret => (.global 1, .unused, .unused)
  | .float _ | .eqRef _ | .neRef _ | .address => (.global 1, .global 1, .global 1)
  | .vector _ => (.global 3, .global 3, .global 3)
  | .dot | .eqVector | .neVector => (.global 3, .global 3, .global 1)
  | .scaleLeft => (.global 1, .global 3, .global 3)
  | .scaleRight => (.global 3, .global 1, .global 3)
  | .load s => (.global 1, .global 1, .global s.words)
  | .store s => (.global s.words, .global s.words, .unused)
  | .storeThrough s => (.global s.words, .global 1, .unused)
  | .notFloat | .notRef _ => (.global 1, .unused, .global 1)
  | .notVector => (.global 3, .unused, .global 1)
  | .branchIf | .branchIfNot => (.global 1, .branch, .unused)
  | .goto => (.branch, .unused, .unused)
  | .call _ => (.global 1, .unused, .unused)
  | .state => (.global 1, .global 1, .unused)

/-- The arguments a call passes. -/
def argc? : Opcode → Option Nat
  | .call argc => some argc.val
  | _ => none

/-- The call with a number of arguments; there is none with more than eight. -/
def ofArgc? (argc : Nat) : Option Opcode :=
  if h : argc < 9 then some (.call ⟨argc, h⟩) else none

/-- Whether the opcode leaves the function. -/
def isReturn : Opcode → Bool
  | .done | .ret => true
  | _ => false

/-- Every opcode stands in the table at the place of its number. -/
theorem ofNumber?_number (op : Opcode) : ofNumber? op.number = some op := by
  rcases op with _ | _ | op | op | _ | _ | _ | _ | _ | k | k | s | _ | s | s | _ | _ | k | _ | _ | _
    | argc | _
  all_goals first
    | rfl
    | (cases op <;> rfl)
    | (cases k <;> rfl)
    | (cases s <;> rfl)
    | skip
  match argc with
  | 0 | 1 | 2 | 3 | 4 | 5 | 6 | 7 | 8 => rfl

end Opcode

/-- A statement of a program. -/
structure Statement where
  op : Opcode
  a : Int16
  b : Int16
  c : Int16
  deriving DecidableEq

namespace Statement

/-- The operands read as offsets of globals. -/
def ga (s : Statement) : Nat := s.a.toUInt16.toNat
def gb (s : Statement) : Nat := s.b.toUInt16.toNat
def gc (s : Statement) : Nat := s.c.toUInt16.toNat

/-- How far a branch goes, in statements. -/
def distance? (s : Statement) : Option Int16 :=
  match s.op with
  | .goto => some s.a
  | .branchIf | .branchIfNot => some s.b
  | _ => none

/-- Where the branch that stands at `index` leads. -/
def target? (s : Statement) (index : Nat) : Option Int :=
  s.distance?.map fun d => (index : Int) + d.toInt

end Statement

end QuakeProgs
