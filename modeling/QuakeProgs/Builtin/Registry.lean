/-
  File:      QuakeProgs/Builtin/Registry.lean
  Subject:   BUILTINS BY NAME AND BY NUMBER.

  A registry names every native function, each with a number of its own. For a program it is
  resolved into a table of slots, which calls consult:

  1. when numbers follow the program, a builtin the program declares under a known name goes to the
     number declared there; a later declaration of the same number wins;
  2. every builtin not placed so far takes its own number if that slot is still empty; the first one
     registered wins, and number zero is no slot for it.

  * `CoreBuiltin` -- the engine's own builtins, with names and numbers;
  * `Registry`, `Registry.register`, `Registry.core`;
  * `BuiltinTable`, `BuiltinTable.build`.
-/
import QuakeProgs.Error
import QuakeProgs.Program
import QuakeProgs.Text.Quoted

namespace QuakeProgs

/-- The engine's own builtins. -/
inductive CoreBuiltin where
  | makevectors | random | normalize | vlen | vectoyaw | rint | floor | ceil | fabs | vectoangles
  | sin | cos | sqrt | pow
  | ftos | vtos | stof | strlen | strcat | substring
  | spawn | remove | find | eprint | coredump | nextent
  | error | objerror | dprint | traceon | traceoff | cvar | checkextension | builtinFind
  deriving DecidableEq, Inhabited

namespace CoreBuiltin

/-- All of them with name and number, in the order of registration. -/
def table : List (CoreBuiltin × String × Nat) :=
  [(.makevectors, "makevectors", 1), (.random, "random", 7), (.normalize, "normalize", 9),
   (.vlen, "vlen", 12), (.vectoyaw, "vectoyaw", 13), (.rint, "rint", 36), (.floor, "floor", 37),
   (.ceil, "ceil", 38), (.fabs, "fabs", 43), (.vectoangles, "vectoangles", 51), (.sin, "sin", 60),
   (.cos, "cos", 61), (.sqrt, "sqrt", 62), (.pow, "pow", 97),
   (.ftos, "ftos", 26), (.vtos, "vtos", 27), (.stof, "stof", 81), (.strlen, "strlen", 114),
   (.strcat, "strcat", 115), (.substring, "substring", 116),
   (.spawn, "spawn", 14), (.remove, "remove", 15), (.find, "find", 18), (.eprint, "eprint", 31),
   (.coredump, "coredump", 28), (.nextent, "nextent", 47),
   (.error, "error", 10), (.objerror, "objerror", 11), (.dprint, "dprint", 25),
   (.traceon, "traceon", 29), (.traceoff, "traceoff", 30), (.cvar, "cvar", 45),
   (.checkextension, "checkextension", 99), (.builtinFind, "builtin_find", 100)]

end CoreBuiltin

/-- What a slot runs: a builtin of the engine, or one that the host supplies under a key. -/
inductive Native where
  | core (b : CoreBuiltin)
  | hosted (key : Nat)
  deriving DecidableEq, Inhabited

/-- A registered builtin. -/
structure Builtin where
  name : String
  number : Nat
  code : Native
  deriving DecidableEq, Inhabited

/-- A builtin as a listing shows it. -/
def Builtin.text (b : Builtin) : String :=
  "Builtin \x7b name: " ++ Text.quoted b.name ++ s!", number: {b.number}, .. \x7d"

/-- The builtins that programs can use, in the order of registration, each name once. -/
structure Registry where
  builtins : Array Builtin := #[]
  extensions : List String := []
  deriving DecidableEq, Inhabited

namespace Registry

def get? (r : Registry) (name : String) : Option Builtin := r.builtins.find? (·.name = name)

/-- Registers a builtin; one of the same name is replaced where it stands. -/
def register (r : Registry) (b : Builtin) : Registry :=
  match r.builtins.findIdx? (·.name = b.name) with
  | some i => { r with builtins := r.builtins.setIfInBounds i b }
  | none => { r with builtins := r.builtins.push b }

/-- Whether an extension is advertised; upper and lower case of ASCII letters are the same. -/
def supports (r : Registry) (name : String) : Bool :=
  r.extensions.any fun e => e.toList.map Char.toLower = name.toList.map Char.toLower

/-- Advertises an extension, once. -/
def addExtension (r : Registry) (name : String) : Registry :=
  if r.supports name then r else { r with extensions := r.extensions ++ [name] }

/-- The engine's own builtins. -/
def core : Registry :=
  let all := CoreBuiltin.table.foldl
    (fun (r : Registry) (b, name, number) => r.register { name, number, code := .core b }) {}
  all.addExtension "DP_QC_SINCOSSQRTPOW"

end Registry

/-- How builtins get their numbers. -/
inductive Numbering where
  /-- Every builtin keeps its own number. -/
  | own
  /-- Numbers follow the names the program declares. -/
  | declared
  deriving DecidableEq, Inhabited

def Numbering.text : Numbering → String
  | .own => "Default"
  | .declared => "Remap"

/-- The builtins of one program by number. -/
structure BuiltinTable where
  slots : Array (Option Builtin) := #[]
  numbering : Numbering := .declared
  deriving DecidableEq, Inhabited

namespace BuiltinTable

/-- What the first pass has done so far: the slots and the names that were placed. -/
structure Placing where
  slots : Array (Option Builtin)
  placed : List String := []

/-- Places the builtin that a function declares, if the name is registered and the number is in
    range. -/
def placeDeclared (r : Registry) (p : Placing) (f : Function) : Placing :=
  match f.builtinNumber?, r.get? f.name with
  | some n, some b =>
    if n < p.slots.size then
      { slots := p.slots.setIfInBounds n (some b), placed := b.name :: p.placed }
    else p
  | _, _ => p

/-- Gives a builtin its own number, if it was not placed and the slot is empty. -/
def placeOwn (placed : List String) (slots : Array (Option Builtin)) (b : Builtin) :
    Array (Option Builtin) :=
  if b.number = 0 ∨ b.name ∈ placed then slots
  else match slots[b.number]? with
    | some none => slots.setIfInBounds b.number (some b)
    | _ => slots

/-- Resolves a registry for a program into a table of `size` slots. -/
def build (r : Registry) (p : Program) (numbering : Numbering) (size : Nat) : BuiltinTable :=
  let empty : Placing := { slots := Array.replicate size none }
  let declared := match numbering with
    | .declared => p.functions.foldl (placeDeclared r) empty
    | .own => empty
  { slots := r.builtins.foldl (placeOwn declared.placed) declared.slots, numbering }

/-- The number of slots that hold a builtin. -/
def assigned (t : BuiltinTable) : Nat := t.slots.countP Option.isSome

/-- The slot with a number: beyond the table is an error, an empty slot is not. -/
def lookup (t : BuiltinTable) (number : Nat) : Except Error (Option Builtin) :=
  match t.slots[number]? with
  | some slot => .ok slot
  | none => .error (Cause.badBuiltin number)

/-- The lowest number at which a builtin can be called. -/
def numberOf? (t : BuiltinTable) (name : String) : Option Nat :=
  t.slots.findIdx? fun slot => slot.any (·.name = name)

def nameOf? (t : BuiltinTable) (number : Nat) : Option String :=
  (t.slots[number]?.join).map (·.name)

end BuiltinTable

end QuakeProgs
