/-
  File:      QuakeProgs/GlobalBlock.lean
  Subject:   THE GLOBAL BLOCK: the word-addressed variables that all program code shares.

  * `Global` -- the offsets that every image agrees on: the return value, the parameters, `self`,
    `time` and the rest of the well-known globals;
  * `GlobalBlock` -- the words, with access checked against the size of the block.
-/
import QuakeProgs.Error
import QuakeProgs.Value

namespace QuakeProgs

/-! ## 1. The offsets every image agrees on. -/

namespace Global

/-- The three words of a return value. -/
def returned : Nat := 1

/-- The first parameter; each parameter has three words. -/
def firstParm : Nat := 4

def maxParms : Nat := 8

/-- Where parameter `n` starts. -/
def parm (n : Nat) : Nat := firstParm + n * 3

/-- One past the last parameter. -/
def parmsEnd : Nat := 28

def self : Nat := 28
def other : Nat := 29
def time : Nat := 31
def vForward : Nat := 59
def vUp : Nat := 62
def vRight : Nat := 65

/-- The number of words every image has. -/
def count : Nat := 92

/-- The well-known globals that an image names. -/
def wellKnown : List (String × ValueType × Nat) :=
  [("self", .entity, 28), ("other", .entity, 29), ("world", .entity, 30), ("time", .float, 31),
   ("frametime", .float, 32), ("force_retouch", .float, 33), ("mapname", .string, 34),
   ("deathmatch", .float, 35), ("coop", .float, 36), ("teamplay", .float, 37),
   ("serverflags", .float, 38), ("total_secrets", .float, 39), ("total_monsters", .float, 40),
   ("found_secrets", .float, 41), ("killed_monsters", .float, 42), ("v_forward", .vector, 59),
   ("v_up", .vector, 62), ("v_right", .vector, 65), ("trace_allsolid", .float, 68),
   ("trace_startsolid", .float, 69), ("trace_fraction", .float, 70), ("trace_endpos", .vector, 71),
   ("trace_plane_normal", .vector, 74), ("trace_plane_dist", .float, 77), ("trace_ent", .entity, 78),
   ("trace_inopen", .float, 79), ("trace_inwater", .float, 80), ("msg_entity", .entity, 81),
   ("main", .function, 82), ("StartFrame", .function, 83), ("PlayerPreThink", .function, 84),
   ("PlayerPostThink", .function, 85), ("ClientKill", .function, 86),
   ("ClientConnect", .function, 87), ("PutClientInServer", .function, 88),
   ("ClientDisconnect", .function, 89), ("SetNewParms", .function, 90),
   ("SetChangeParms", .function, 91)]

end Global

/-! ## 2. The block. -/

/-- The words of the globals. -/
structure GlobalBlock where
  words : Array Word
  deriving DecidableEq, Inhabited

namespace GlobalBlock

def zeroed (n : Nat) : GlobalBlock := ⟨Array.replicate n 0⟩

def size (g : GlobalBlock) : Nat := g.words.size

/-- The error of an access at `ofs`. -/
def bad (g : GlobalBlock) (ofs : Nat) : Error := Cause.badGlobal ofs g.size

def get (g : GlobalBlock) (ofs : Nat) : Except Error Word :=
  match g.words[ofs]? with
  | some w => .ok w
  | none => .error (g.bad ofs)

/-- The `n` words from `ofs` on. -/
def slice (g : GlobalBlock) (ofs n : Nat) : Except Error (Array Word) :=
  match Block.slice? g.words ofs n with
  | some ws => .ok ws
  | none => .error (g.bad ofs)

/-- Whether there are `n` words from `ofs` on. -/
def check (g : GlobalBlock) (ofs n : Nat) : Except Error Unit :=
  if ofs + n ≤ g.size then .ok () else .error (g.bad ofs)

/-- Overwrites the words from `ofs` on; what lies past the end is dropped. -/
def overwrite (g : GlobalBlock) (ofs : Nat) (ws : List Word) : GlobalBlock :=
  ⟨Block.writeFrom g.words ofs ws⟩

/-- Overwrites the words from `ofs` on, if the block has them all. -/
def write (g : GlobalBlock) (ofs : Nat) (ws : List Word) : Except Error GlobalBlock := do
  g.check ofs ws.length
  return g.overwrite ofs ws

def set (g : GlobalBlock) (ofs : Nat) (w : Word) : Except Error GlobalBlock := g.write ofs [w]

def float (g : GlobalBlock) (ofs : Nat) : Except Error Single := (g.get ofs).map Word.toSingle

def setFloat (g : GlobalBlock) (ofs : Nat) (x : Single) : Except Error GlobalBlock := g.set ofs x.bits

def vector (g : GlobalBlock) (ofs : Nat) : Except Error Vec3 :=
  (g.slice ofs 3).map fun ws => Vec3.ofWords ws.toList

def setVector (g : GlobalBlock) (ofs : Nat) (v : Vec3) : Except Error GlobalBlock :=
  g.write ofs v.toWords

/-- A typed value, from as many words as the type takes up. -/
def value (g : GlobalBlock) (ofs : Nat) (t : ValueType) : Except Error Value :=
  (g.slice ofs t.words).map fun ws => Value.read t ws.toList

def setValue (g : GlobalBlock) (ofs : Nat) (v : Value) : Except Error GlobalBlock :=
  g.write ofs v.toWords

/-- Copies `n` words at once: where the two runs overlap, the old words are copied. -/
def copy (g : GlobalBlock) (src dst n : Nat) : Except Error GlobalBlock :=
  match g.slice src n with
  | .ok ws => g.write dst ws.toList
  | .error e => .error e

end GlobalBlock

end QuakeProgs
