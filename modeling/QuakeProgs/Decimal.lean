/-
  File:      QuakeProgs/Decimal.lean
  Subject:   SHORTEST DECIMALS: the fewest digits that read back as a given binary number.

  * `Decimal.shortest` -- of the decimals that round to `m · 2^e`, one with the fewest digits, and of
    those the nearest (of two equally near, the larger);
  * `Decimal.positional` -- a decimal without an exponent;
  * `Decimal.text` -- the shortest decimal, written positionally.
-/
import QuakeProgs.Binary

namespace QuakeProgs.Decimal

open Binary

/-! ## 1. The rounding interval. -/

/-- The reals that round to a number, and the number itself, over one denominator. The ends belong
    to the interval when `closed`. -/
structure Interval where
  low : Nat
  mid : Nat
  high : Nat
  den : Nat
  closed : Bool

/-- The rounding interval of `m · 2^e`. Below a power of two the neighbours lie half as far apart. -/
def interval (f : Format) (m : Nat) (e : Int) : Interval :=
  let scale := 1 <<< (e - 2).toNat
  let below := if m = f.least ∧ e > f.lowest then 1 else 2
  { low := (4 * m - below) * scale
    mid := 4 * m * scale
    high := (4 * m + 2) * scale
    den := 1 <<< (2 - e).toNat
    closed := m % 2 = 0 }

/-- Whether `c · 10^p` rounds to the number of the interval. -/
def Interval.contains (i : Interval) (c : Nat) (p : Int) : Bool :=
  let point := c * Nat.pow 10 p.toNat * i.den
  let low := i.low * Nat.pow 10 (-p).toNat
  let high := i.high * Nat.pow 10 (-p).toNat
  if i.closed then low ≤ point ∧ point ≤ high else low < point ∧ point < high

/-- The number of zeros that follow the point of `n / d`, a quotient below one, at most `fuel`. -/
def zeros (n d : Nat) : (fuel : Nat) → Nat
  | 0 => 0
  | fuel + 1 => if 10 * n ≥ d then 0 else zeros (10 * n) d fuel + 1

/-- The number of decimal digits before the point of the interval's middle; for a middle below one,
    minus the number of zeros that follow the point. -/
def Interval.magnitude (i : Interval) : Int :=
  if i.mid ≥ i.den then (Nat.toDigits 10 (i.mid / i.den)).length
  else -((zeros i.mid i.den i.den.log2) : Int)

/-- The point of the grid of multiples of `10^p` that stands for the interval: of the middle's two
    neighbours on the grid the nearer one that lies inside, the upper one on a tie. -/
def Interval.onGrid? (i : Interval) (p : Int) : Option Nat :=
  let num := i.mid * Nat.pow 10 (-p).toNat
  let den := i.den * Nat.pow 10 p.toNat
  let floor := num / den
  let up := i.contains (floor + 1) p
  let down := i.contains floor p
  if up ∧ (¬ down ∨ 2 * (num % den) ≥ den) then some (floor + 1)
  else if down then some floor
  else none

/-! ## 2. The fewest digits that read back. -/

/-- Drops trailing zeros of `c · 10^p`, at most `fuel` of them. -/
def dropZeros : Nat → Nat → Int → Nat × Int
  | 0, c, p => (c, p)
  | fuel + 1, c, p => if c % 10 = 0 ∧ c ≠ 0 then dropZeros fuel (c / 10) (p + 1) else (c, p)

/-- The decimal `c · 10^p` with the fewest digits that rounds to `m · 2^e`. A format's number of
    digits always suffices, so the grids of one digit and more are tried in turn. -/
def shortest (f : Format) (m : Nat) (e : Int) : Nat × Int :=
  let i := interval f m e
  let k := i.magnitude
  let hit := (List.range f.digits).findSome? fun n =>
    let p := k - (n + 1 : Nat)
    (i.onGrid? p).map (·, p)
  let (c, p) := hit.getD (0, 0)
  dropZeros f.digits c p

/-! ## 3. Text. -/

/-- `c · 10^p` in positional notation. -/
def positional (c : Nat) (p : Int) : String :=
  let digits := Nat.toDigits 10 c
  if p ≥ 0 then String.ofList (digits ++ List.replicate p.toNat '0')
  else
    let places := (-p).toNat
    let padded := List.replicate (places + 1 - digits.length) '0' ++ digits
    let whole := padded.length - places
    String.ofList (padded.take whole ++ '.' :: padded.drop whole)

/-- The sign in front of a magnitude's text. -/
def signed (neg : Bool) (s : String) : String := if neg then "-" ++ s else s

/-- A number as the shortest decimal that reads back: `1`, `0.1`, `-0`, `inf`, `NaN`. -/
def text (f : Format) : View → String
  | .nan => "NaN"
  | .infinite neg => signed neg "inf"
  | .finite neg m e =>
    if m = 0 then signed neg "0"
    else
      let (c, p) := shortest f m e
      signed neg (positional c p)

end QuakeProgs.Decimal
