/-
  File:      QuakeProgs/Value.lean
  Subject:   TYPED VALUES: what words mean at the borders of the machine.

  * `ValueType` -- the eight types a definition can declare, with the tag the image stores;
  * `Value` -- a typed reading of one or three words;
  * `Value.read`, `Value.toWords`, `Value.write` -- between values and words;
  * `Value.text` -- a value as a listing shows it, without looking any name up.
-/
import QuakeProgs.Word

namespace QuakeProgs

/-- The type of a definition. -/
inductive ValueType where
  | void | string | float | vector | entity | field | function | pointer
  deriving DecidableEq, Inhabited

namespace ValueType

def all : List ValueType := [.void, .string, .float, .vector, .entity, .field, .function, .pointer]

/-- The bit of a stored tag that marks a global kept across levels. -/
def saveBit : Nat := 0x8000

/-- The type with a stored tag; the save bit is no part of the type. -/
def ofTag? (tag : UInt16) : Option ValueType := all[tag.toNat % saveBit]?

def tag : ValueType → UInt16
  | .void => 0 | .string => 1 | .float => 2 | .vector => 3
  | .entity => 4 | .field => 5 | .function => 6 | .pointer => 7

/-- The words a value of the type takes up. -/
def words : ValueType → Nat
  | .vector => 3
  | _ => 1

def name : ValueType → String
  | .void => "void" | .string => "string" | .float => "float" | .vector => "vector"
  | .entity => "entity" | .field => "field" | .function => "function" | .pointer => "pointer"

def ofName? (s : String) : Option ValueType := all.find? (·.name = s)

theorem ofTag?_tag (t : ValueType) : ofTag? t.tag = some t := by cases t <;> decide

end ValueType

/-- A typed value. -/
inductive Value where
  | void
  | string (r : StringRef)
  | float (x : Single)
  | vector (v : Vec3)
  | entity (e : EdictId)
  | field (ofs : UInt32)
  | function (f : FuncRef)
  | pointer (p : UInt32)
  deriving DecidableEq, Inhabited

/-- Three words read as a vector; missing words are zero. -/
def Vec3.ofWords (ws : List Word) : Vec3 := ⟨⟨ws.getD 0 0⟩, ⟨ws.getD 1 0⟩, ⟨ws.getD 2 0⟩⟩

def Vec3.toWords (v : Vec3) : List Word := [v.x.bits, v.y.bits, v.z.bits]

namespace Value

/-- Reads a value of a type from words; missing words are zero. -/
def read (t : ValueType) (ws : List Word) : Value :=
  let w := ws.getD 0 0
  match t with
  | .void => .void
  | .string => .string w.toRef
  | .float => .float ⟨w⟩
  | .vector => .vector (Vec3.ofWords ws)
  | .entity => .entity w
  | .field => .field w
  | .function => .function w
  | .pointer => .pointer w

def type : Value → ValueType
  | .void => .void | .string _ => .string | .float _ => .float | .vector _ => .vector
  | .entity _ => .entity | .field _ => .field | .function _ => .function | .pointer _ => .pointer

/-- The words a value is stored in: as many as its type takes up. -/
def toWords : Value → List Word
  | .void => [0]
  | .string r => [Word.ofRef r]
  | .float x => [x.bits]
  | .vector v => v.toWords
  | .entity e => [e]
  | .field ofs => [ofs]
  | .function f => [f]
  | .pointer p => [p]

/-- The words of a value filled up with zeros to three. -/
def toTriple (v : Value) : List Word := (v.toWords ++ [0, 0]).take 3

/-- Overwrites the front of a run of words with a value, as far as the run goes. -/
def write (v : Value) (out : List Word) : List Word :=
  v.toWords.take out.length ++ out.drop v.type.words

def asFloat? : Value → Option Single
  | .float x => some x
  | _ => none

def asVector? : Value → Option Vec3
  | .vector v => some v
  | _ => none

def asEntity? : Value → Option EdictId
  | .entity e => some e
  | _ => none

/-- A value as text, with numbers for all that it refers to. -/
def text : Value → String
  | .void => "void"
  | .string r => s!"string@{r.toInt}"
  | .float x => x.text
  | .vector v => s!"'{v.x.text} {v.y.text} {v.z.text}'"
  | .entity e => EdictId.text e
  | .field ofs => s!".{ofs.toNat}"
  | .function f => s!"function {f.toNat}"
  | .pointer p => s!"pointer {p.toNat}"

theorem length_toWords (v : Value) : v.toWords.length = v.type.words := by cases v <;> rfl

/-- Reading a value back from its own words gives the value. -/
theorem read_toWords (v : Value) : read v.type v.toWords = v := by cases v <;> rfl

end Value

end QuakeProgs
