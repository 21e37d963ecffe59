/-
  File:      QuakeProgs/Builtin/Numeric.lean
  Subject:   NUMBERS AND DIRECTIONS: the arithmetic behind the numeric builtins.

  Angles are in degrees: pitch, yaw and roll. Every operation rounds once.

  * `Vec3.length`, `Vec3.normalize`;
  * `AngleVectors.ofAngles` -- the three directions that a triple of angles stands for;
  * `Vec3.yaw`, `Vec3.pitch` -- the angles of a direction in whole degrees;
  * `Single.rint` -- to the nearest whole number, a half away from zero;
  * `Single.ofDraw` -- a number between zero and one from a random word.
-/
import QuakeProgs.Single.Transcendental

namespace QuakeProgs

namespace Single

def pi : Single := ⟨0x40490fdb⟩

/-- A full turn in degrees. -/
def turn : Single := ofNat 360

/-- Degrees to radians: times `π · 2 / 360`, itself rounded. -/
def radians (degrees : Single) : Single := degrees * (pi * ofNat 2 / turn)

/-- An angle in radians as whole degrees, a negative one a turn further. -/
def wholeDegrees (angle : Single) : Single :=
  let d := (angle * ofNat 180 / pi).trunc
  if d.lt zero then d + turn else d

/-- To the nearest whole number: half a unit away from zero, then toward zero. -/
def rint (x : Single) : Single := if zero.lt x then (x + half).trunc else (x - half).trunc

/-- The top fifteen bits of a word as a share of their greatest value. -/
def ofDraw (w : UInt32) : Single := ofNat (w >>> 17).toNat / ofNat 0x7fff

end Single

namespace Vec3

def length (v : Vec3) : Single := (v.dot v).sqrt

/-- The direction of a vector; a vector of length zero has none. -/
def normalize (v : Vec3) : Vec3 :=
  let len := v.length
  if len.numEq .zero then zero else ⟨v.x / len, v.y / len, v.z / len⟩

/-- Straight up or down, or no direction at all. -/
def isVertical (v : Vec3) : Bool := v.x.numEq .zero && v.y.numEq .zero

/-- The angle around the vertical axis. -/
def yaw (v : Vec3) : Single :=
  if v.isVertical then .zero else (Single.atan2 v.y v.x).wholeDegrees

/-- The angle above the horizon. -/
def pitch (v : Vec3) : Single :=
  if v.isVertical then (if Single.zero.lt v.z then .ofNat 90 else .ofNat 270)
  else (Single.atan2 v.z (v.x * v.x + v.y * v.y).sqrt).wholeDegrees

/-- Pitch and yaw of a direction, without roll. -/
def angles (v : Vec3) : Vec3 := ⟨v.pitch, v.yaw, .zero⟩

end Vec3

/-- Three directions at right angles. -/
structure AngleVectors where
  forward : Vec3
  right : Vec3
  up : Vec3
  deriving DecidableEq, Inhabited

/-- The directions that pitch, yaw and roll stand for. -/
def AngleVectors.ofAngles (angles : Vec3) : AngleVectors :=
  let (sp, cp) := (angles.x.radians.sin, angles.x.radians.cos)
  let (sy, cy) := (angles.y.radians.sin, angles.y.radians.cos)
  let (sr, cr) := (angles.z.radians.sin, angles.z.radians.cos)
  { forward := ⟨cp * cy, cp * sy, -sp⟩
    right := ⟨-sr * sp * cy + cr * sy, -sr * sp * sy - cr * cy, -sr * cp⟩
    up := ⟨cr * sp * cy + sr * sy, cr * sp * sy - sr * cy, cr * cp⟩ }

end QuakeProgs
