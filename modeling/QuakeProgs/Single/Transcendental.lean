/-
  File:      QuakeProgs/Single/Transcendental.lean
  Subject:   SINE, COSINE, ARC TANGENT AND POWER of singles, each rounded once.

  Every function is evaluated in whole numbers scaled by `2^320` (`Scaled`), with an error far below
  the distance that any result over singles keeps from a rounding boundary, and the scaled result is
  rounded to the nearest single. The special operands follow the usual rules of the standard.

  * `Scaled.sinCos`, `Scaled.arctan`, `Scaled.log`, `Scaled.exp` -- the series;
  * `Single.sin`, `Single.cos`, `Single.atan2`, `Single.pow`.
-/
import QuakeProgs.Single

namespace QuakeProgs

/-! ## 1. Series in scaled whole numbers. -/

namespace Scaled

/-- The number of binary places of a scaled number. -/
def places : Nat := 320

def unit : Int := (1 <<< places : Nat)

def mul (a b : Int) : Int := a * b / unit

def div (a b : Int) : Int := a * unit / b

/-- `z + z^3/3 + z^5/5 + …` with the powers alternating in sign when `alternate`: the inverse
    tangent, or the inverse hyperbolic tangent, of a small number. -/
def oddSeries (alternate : Bool) (square : Int) : Nat → Nat → Int → Int
  | 0, _, _ => 0
  | fuel + 1, k, power =>
    let next := mul power square
    power / (2 * k + 1 : Nat) + oddSeries alternate square fuel (k + 1) (if alternate then -next else next)

/-- The inverse tangent of `1 / n`. -/
def arctanInverse (n : Nat) : Int :=
  let z := unit / n
  oddSeries true (mul z z) 160 0 z

/-- Half a turn. -/
def pi : Int := 16 * arctanInverse 5 - 4 * arctanInverse 239

def quarter : Int := pi / 2

/-- `t - t·r²/(k(k+1)) + …`: the tail of the sine or cosine series from the term `t` on. -/
def circular (square : Int) : Nat → Nat → Int → Int
  | 0, _, _ => 0
  | fuel + 1, k, term => term + circular square fuel (k + 2) (-(mul term square) / (k * (k + 1) : Nat))

/-- The sine and cosine of a scaled number, brought within an eighth of a turn first. -/
def sinCos (x : Int) : Int × Int :=
  let q := (2 * x + quarter) / (2 * quarter)
  let r := x - q * quarter
  let square := mul r r
  let s := circular square 48 2 r
  let c := circular square 48 1 unit
  match (q % 4).toNat with
  | 0 => (s, c)
  | 1 => (c, -s)
  | 2 => (-s, -c)
  | _ => (-c, s)

/-- Terms of Euler's series for the inverse tangent; each is at most half the one before. -/
def eulerSeries (ratio : Int) : Nat → Nat → Int → Int
  | 0, _, _ => 0
  | fuel + 1, n, term =>
    term + eulerSeries ratio fuel (n + 1) (mul term ratio * (2 * n + 2 : Nat) / (2 * n + 3 : Nat))

/-- The inverse tangent of a number between zero and one. -/
def arctan (t : Int) : Int :=
  let square := mul t t
  eulerSeries (div square (unit + square)) 340 0 (div t (unit + square))

/-- The natural logarithm of a number between one and two. -/
def logNear (f : Int) : Int :=
  let z := div (f - unit) (f + unit)
  2 * oddSeries false (mul z z) 110 0 z

def logTwo : Int := logNear (2 * unit)

/-- `t + t·r/k + …`: the tail of the exponential series. -/
def exponential (r : Int) : Nat → Nat → Int → Int
  | 0, _, _ => 0
  | fuel + 1, k, term => term + exponential r fuel (k + 1) (mul term r / k)

/-- The exponential of `x` as `(v, n)`, standing for `v · 2^n`. -/
def exp (x : Int) : Int × Int :=
  let n := (2 * x + logTwo) / (2 * logTwo)
  (exponential (x - n * logTwo) 80 1 unit, n)

end Scaled

namespace Single

/-- The nearest single to a scaled number. -/
def ofScaled (v : Int) : Single := ofRatio (v < 0) v.natAbs (1 <<< Scaled.places)

/-- The magnitude `m · 2^e` as a scaled number; exact, since no single has finer places. -/
def scaled (m : Nat) (e : Int) : Int := (m <<< ((Scaled.places : Int) + e).toNat : Nat)

/-! ## 2. Sine and cosine. -/

def sin (x : Single) : Single :=
  match x.view with
  | .finite neg m e =>
    if m = 0 then x else withSign neg (ofScaled (Scaled.sinCos (scaled m e)).1)
  | .infinite _ => invalid
  | .nan => x.quiet

def cos (x : Single) : Single :=
  match x.view with
  | .finite _ m e => ofScaled (Scaled.sinCos (scaled m e)).2
  | .infinite _ => invalid
  | .nan => x.quiet

/-! ## 3. The angle of a direction. -/

/-- The angle of the direction with components `y` and `x`, between minus and plus half a turn. -/
def atan2 (y x : Single) : Single :=
  let back := x.isNegative
  let angle (v : Int) : Single := withSign y.isNegative (ofScaled (if back then Scaled.pi - v else v))
  match y.view, x.view with
  | .nan, _ => y.quiet
  | _, .nan => x.quiet
  | .infinite _, .infinite _ => angle (Scaled.pi / 4)
  | .infinite _, .finite .. => angle (Scaled.pi / 2)
  | .finite .., .infinite _ => angle 0
  | .finite _ m e, .finite _ n f =>
    if m = 0 then angle 0
    else if n = 0 then angle (Scaled.pi / 2)
    else
      let num : Nat := m <<< (e - f).toNat
      let den : Nat := n <<< (f - e).toNat
      if num ≤ den then angle (Scaled.arctan (num * Scaled.unit / den))
      else angle (Scaled.quarter - Scaled.arctan (den * Scaled.unit / num))

/-! ## 4. Powers. -/

/-- Whether `± m · 2^e` is a whole number, and whether it is an odd one. -/
def wholeOdd (m : Nat) (e : Int) : Bool × Bool :=
  (isWholePart m e, isWholePart m e && wholePart m e % 2 = 1)

/-- The natural logarithm of `m · 2^e`, for `m` above zero. -/
def logOf (m : Nat) (e : Int) : Int :=
  let top := m.log2
  let f : Int := m * Scaled.unit / (1 <<< top : Nat)
  Scaled.logNear f + (e + top) * Scaled.logTwo

/-- `exp x` as the nearest single. The scaled value is cut to 200 places first, so that a power that
    is exact comes out exact. -/
def expRounded (x : Int) : Single :=
  if x > 200 * Scaled.unit then infinity false
  else if x < -200 * Scaled.unit then zero
  else
    let (v, n) := Scaled.exp x
    -- of the 320 places 120 go
    let cut : Nat := ((v + (1 <<< 119 : Nat)) / (1 <<< 120 : Nat)).toNat
    ofRatio false (cut <<< n.toNat) (1 <<< (200 + (-n).toNat))

/-- `x` to the power `y`. A power of zero is one and one to any power is one, for a quiet NaN too; a
    negative base has powers for whole exponents only, with the base's sign when the exponent is
    odd. -/
def pow (x y : Single) : Single :=
  match x.view, y.view with
  | _, .finite _ 0 _ => if x.isSignaling then x.quiet else one
  | .nan, _ => x.quiet
  | _, .nan => if x = one ∧ ¬ y.isSignaling then one else y.quiet
  | .infinite _, .infinite yneg => if yneg then zero else infinity false
  | .finite _ m e, .infinite yneg =>
    let size := m <<< (e + 149).toNat
    if size = 1 <<< 149 then one
    else if (size < 1 <<< 149) = yneg then infinity false else zero
  | .infinite neg, .finite yneg n f =>
    let sign := neg && (wholeOdd n f).2
    withSign sign (if yneg then zero else infinity false)
  | .finite neg m e, .finite yneg n f =>
    let (whole, odd) := wholeOdd n f
    let sign := neg && odd
    if m = 0 then withSign sign (if yneg then infinity false else zero)
    else if neg ∧ ¬ whole then invalid
    else
      let log := logOf m e * n
      let product := if f ≥ 0 then log * (1 <<< f.toNat : Nat) else log / (1 <<< (-f).toNat : Nat)
      withSign sign (expRounded (if yneg then -product else product))

end Single

end QuakeProgs
