/-
  File:      QuakeProgs/Single.lean
  Subject:   SINGLES: binary32 patterns, their arithmetic and their reading as exact numbers.

  A program's numbers are 32-bit patterns. Moving one must keep every bit (a NaN with a payload
  included), computing with one rounds once per operation:

  * `Single` -- the pattern itself; equality of singles is equality of bits;
  * `+ - * /`, `Single.sqrt`, `Single.lt`, `Single.le`, `Single.numEq` -- the arithmetic of the
    standard, through core's `Float32`, whose logical model computes in the kernel too;
  * `Single.quiet`, `Single.invalid` -- the two NaNs that arithmetic gives: that of an operand, or
    the one of an operation that has no result;
  * `Single.view` -- a single as NaN, an infinity or `± m · 2^e` with `m` and `e` exact;
  * `Single.ofRatio` -- the single nearest to an exact quotient, ties to the even pattern;
  * `Single.toIntWithin` -- the whole part, clamped to a range, NaN as zero.
-/
import QuakeProgs.Binary

namespace QuakeProgs

/-- A binary32 pattern. -/
structure Single where
  bits : UInt32
  deriving DecidableEq, Inhabited

namespace Single

/-! ## 1. Arithmetic. -/

/-- The number a pattern stands for. -/
def toFloat (x : Single) : Float32 := Float32.ofBits x.bits

/-- The pattern of a computed number. -/
def ofFloat (f : Float32) : Single := ⟨f.toBits⟩

def zero : Single := ⟨0⟩
def one : Single := ⟨0x3f800000⟩
def half : Single := ⟨0x3f000000⟩

def isNaN (x : Single) : Bool := x.bits &&& 0x7fffffff > 0x7f800000

/-- A NaN as arithmetic hands it on: the top bit of the payload is set. -/
def quiet (x : Single) : Single := ⟨x.bits ||| 0x00400000⟩

/-- A NaN that arithmetic does not hand on as it is. -/
def isSignaling (x : Single) : Bool := x.isNaN && x.quiet ≠ x

/-- The NaN of an operation that has no result, such as a difference of infinities. -/
def invalid : Single := ⟨0xffc00000⟩

/-- The pattern of a computed number, where none is `invalid`. -/
def computed (f : Float32) : Single :=
  let r := ofFloat f
  if r.isNaN then invalid else r

/-- An operation on two numbers. A NaN operand is the result, the first one before the second. -/
def arith (op : Float32 → Float32 → Float32) (a b : Single) : Single :=
  if a.isNaN then a.quiet else if b.isNaN then b.quiet else computed (op a.toFloat b.toFloat)

instance : Add Single := ⟨arith (· + ·)⟩
instance : Sub Single := ⟨arith (· - ·)⟩
instance : Mul Single := ⟨arith (· * ·)⟩
instance : Div Single := ⟨arith (· / ·)⟩

/-- Negation turns the sign bit over, whatever the pattern. -/
instance : Neg Single := ⟨fun a => ⟨a.bits ^^^ 0x80000000⟩⟩

/-- Clears the sign bit. -/
def abs (x : Single) : Single := ⟨x.bits &&& 0x7fffffff⟩

def sqrt (x : Single) : Single := if x.isNaN then x.quiet else computed x.toFloat.sqrt

/-- `a < b` as numbers; false when either is NaN. -/
def lt (a b : Single) : Bool := a.toFloat.lt b.toFloat

/-- `a ≤ b` as numbers; false when either is NaN. -/
def le (a b : Single) : Bool := a.toFloat.le b.toFloat

/-- Equality as numbers: the two zeros are equal, a NaN equals nothing. -/
def numEq (a b : Single) : Bool := a.toFloat.beq b.toFloat

/-- A single other than the two zeros (NaN included) counts as true. -/
def truth (x : Single) : Bool := !x.numEq zero

/-- The number a condition leaves behind: one or zero. -/
def ofBool (b : Bool) : Single := if b then one else zero

/-! ## 2. Exact reading. -/

def isNegative (x : Single) : Bool := x.bits ≥ 0x80000000

def view (x : Single) : Binary.View :=
  let neg := x.isNegative
  let expo : Nat := x.bits.toNat / 0x800000 % 256
  let frac : Nat := x.bits.toNat % 0x800000
  if expo = 255 then (if frac = 0 then .infinite neg else .nan)
  else if expo = 0 then .finite neg frac (-149)
  else .finite neg (0x800000 + frac) ((expo : Int) - 150)

/-- Puts a sign on a pattern without one. -/
def withSign (neg : Bool) (x : Single) : Single := if neg then -x else x

def infinity (neg : Bool) : Single := withSign neg ⟨0x7f800000⟩
def quietNaN : Single := ⟨0x7fc00000⟩

/-- `n · 2^e / d` rounded to a whole number, a half to the even neighbour. -/
def roundScaled (n d : Nat) (e : Int) : Nat :=
  let num := n <<< e.toNat
  let den := d <<< (-e).toNat
  let q := num / den
  let r := num % den
  if 2 * r > den ∨ (2 * r = den ∧ q % 2 = 1) then q + 1 else q

/-- The exponent `e` at which the integer part of `(n / d) · 2^(-e)` has 24 bits, but not below the
    exponent of the smallest subnormal. -/
def unitExponent (n d : Nat) : Int :=
  let guess : Int := (n.log2 : Int) - (d.log2 : Int) - 23
  -- the quotient lies in `[2^(guess + 22), 2^(guess + 24))`
  let lower := d <<< (guess + 23).toNat ≤ n <<< (-(guess + 23)).toNat
  let e := if lower then guess else guess - 1
  max e (-149)

/-- The single nearest to `± n / d`, a tie to the even pattern, overflow to infinity. -/
def ofRatio (neg : Bool) (n d : Nat) : Single :=
  if n = 0 ∨ d = 0 then withSign neg zero
  else
    let e := unitExponent n d
    let q := roundScaled n d (-e)
    -- a carry out of the 24 bits lands on the next exponent by itself
    let pattern := (e + 149).toNat * 0x800000 + q
    if pattern ≥ 0x7f800000 then infinity neg else withSign neg ⟨pattern.toUInt32⟩

/-- The single nearest to a whole number. -/
def ofInt (i : Int) : Single := ofRatio (i < 0) i.natAbs 1

def ofNat (n : Nat) : Single := ofRatio false n 1

/-! ## 3. Whole parts. -/

/-- The integer part of a magnitude `m · 2^e`. -/
def wholePart (m : Nat) (e : Int) : Nat := (m <<< e.toNat) >>> (-e).toNat

/-- Whether `m · 2^e` is a whole number. -/
def isWholePart (m : Nat) (e : Int) : Bool := m % (1 <<< (-e).toNat) == 0

/-- The whole part toward zero, clamped to `lo … hi`; NaN gives zero. -/
def toIntWithin (lo hi : Int) (x : Single) : Int :=
  match x.view with
  | .nan => 0
  | .infinite neg => if neg then lo else hi
  | .finite neg m e =>
    let i : Int := if neg then -(wholePart m e : Int) else wholePart m e
    max lo (min hi i)

/-- The whole part as a signed 32-bit number. -/
def toInt32 (x : Single) : Int := x.toIntWithin (-0x80000000) 0x7fffffff

/-- Rounds to a whole number: `up neg` says whether a fraction moves the magnitude up. What has no
    fraction stays as it is, bit for bit, a NaN too. -/
def roundWhole (up : Bool → Bool) (x : Single) : Single :=
  match x.view with
  | .nan | .infinite _ => x
  | .finite neg m e =>
    if isWholePart m e then x
    else withSign neg (ofNat (wholePart m e + if up neg then 1 else 0))

/-- Toward zero. -/
def trunc (x : Single) : Single := x.roundWhole fun _ => false

/-- Toward minus infinity. -/
def floor (x : Single) : Single := x.roundWhole id

/-- Toward plus infinity. -/
def ceil (x : Single) : Single := x.roundWhole (!·)

end Single

/-- Three singles: a direction, a position or a triple of angles. -/
structure Vec3 where
  x : Single
  y : Single
  z : Single
  deriving DecidableEq, Inhabited

namespace Vec3

def zero : Vec3 := ⟨.zero, .zero, .zero⟩

def toList (v : Vec3) : List Single := [v.x, v.y, v.z]

instance : Add Vec3 := ⟨fun u v => ⟨u.x + v.x, u.y + v.y, u.z + v.z⟩⟩
instance : Sub Vec3 := ⟨fun u v => ⟨u.x - v.x, u.y - v.y, u.z - v.z⟩⟩

/-- `s · v`, component by component. -/
def scale (s : Single) (v : Vec3) : Vec3 := ⟨s * v.x, s * v.y, s * v.z⟩

/-- The inner product, summed from the first component on. -/
def dot (u v : Vec3) : Single := u.x * v.x + u.y * v.y + u.z * v.z

/-- Equality as numbers in all three components. -/
def numEq (u v : Vec3) : Bool := u.x.numEq v.x && u.y.numEq v.y && u.z.numEq v.z

/-- All three components are a zero. -/
def isZero (v : Vec3) : Bool := v.numEq zero

end Vec3

end QuakeProgs
