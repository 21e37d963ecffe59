/-
  File:      QuakeProgs/Symbols.lean
  Subject:   FIELDS BY NAME: the ones the engine itself uses, and a small cache for the rest.

  * `HotFields` -- the fields the engine touches, found once for each program; a field that is absent
    or has another type is left out;
  * `FieldCache` -- remembers the last two names asked for, present or absent. It belongs to one
    program and is cleared when another is loaded.
-/
import QuakeProgs.Program

namespace QuakeProgs

/-- Where the fields lie that the engine itself uses. -/
structure HotFields where
  classname : Option Nat := none
  model : Option Nat := none
  origin : Option Nat := none
  angles : Option Nat := none
  velocity : Option Nat := none
  frame : Option Nat := none
  nextthink : Option Nat := none
  think : Option Nat := none
  health : Option Nat := none
  flags : Option Nat := none
  targetname : Option Nat := none
  deriving DecidableEq, Inhabited

namespace HotFields

/-- The offset of a field that has the wanted type. -/
def find (p : Program) (name : String) (type : ValueType) : Option Nat :=
  match p.findField? name with
  | some d => if d.type = type then some d.ofs else none
  | none => none

def resolve (p : Program) : HotFields :=
  { classname := find p "classname" .string
    model := find p "model" .string
    origin := find p "origin" .vector
    angles := find p "angles" .vector
    velocity := find p "velocity" .vector
    frame := find p "frame" .float
    nextthink := find p "nextthink" .float
    think := find p "think" .function
    health := find p "health" .float
    flags := find p "flags" .float
    targetname := find p "targetname" .string }

/-- The fields under their names. -/
def toList (h : HotFields) : List (String × Option Nat) :=
  [("classname", h.classname), ("model", h.model), ("origin", h.origin), ("angles", h.angles),
   ("velocity", h.velocity), ("frame", h.frame), ("nextthink", h.nextthink), ("think", h.think),
   ("health", h.health), ("flags", h.flags), ("targetname", h.targetname)]

end HotFields

/-- What was last asked for: a name, and where the field lies if there is one. -/
structure CacheEntry where
  name : String
  ofs : Option Nat
  deriving DecidableEq, Inhabited

/-- A cache of two names; `second` says that the second place is overwritten next. -/
structure FieldCache where
  fst : Option CacheEntry := none
  snd : Option CacheEntry := none
  second : Bool := false
  deriving DecidableEq, Inhabited

namespace FieldCache

def entries (c : FieldCache) : List CacheEntry := c.fst.toList ++ c.snd.toList

def find? (c : FieldCache) (name : String) : Option CacheEntry := c.entries.find? (·.name = name)

def contains (c : FieldCache) (name : String) : Bool := (c.find? name).isSome

/-- Remembers an answer in the place whose turn it is. -/
def remember (c : FieldCache) (e : CacheEntry) : FieldCache :=
  if c.second then { c with snd := some e, second := false }
  else { c with fst := some e, second := true }

/-- Where a field lies, from the cache or from the program. -/
def lookup (c : FieldCache) (p : Program) (name : String) : Option Nat × FieldCache :=
  match c.find? name with
  | some e => (e.ofs, c)
  | none =>
    let ofs := (p.findField? name).map Def.ofs
    (ofs, c.remember { name, ofs })

end FieldCache

end QuakeProgs
