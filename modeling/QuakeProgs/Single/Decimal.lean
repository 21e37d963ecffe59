/-
  File:      QuakeProgs/Single/Decimal.lean
  Subject:   DECIMAL TEXT OF SINGLES: the fewest digits that read back, a fixed number of places,
             and reading.

  * `Single.text` -- the shortest decimal that reads back;
  * `Single.fixed` -- the exact value rounded to a number of places, a tie to the even digit;
  * `Single.decimal?` -- the longest decimal a text starts with, rounded once, and what follows it;
  * `Single.ofDecimal?` -- a text that is a number as a whole.
-/
import QuakeProgs.Decimal
import QuakeProgs.Single

namespace QuakeProgs.Single

/-- A single as the shortest decimal that reads back: `1`, `0.1`, `-0`, `inf`, `NaN`. -/
def text (x : Single) : String := Decimal.text Binary.single x.view

/-! ## 1. A fixed number of places. -/

/-- The exact value with `places` digits after the point, a tie to the even digit. -/
def fixed (places : Nat) (x : Single) : String :=
  match x.view with
  | .nan => "NaN"
  | .infinite neg => Decimal.signed neg "inf"
  | .finite neg m e =>
    Decimal.signed neg (Decimal.positional (roundScaled (m * Nat.pow 10 places) 1 e) (-(places : Int)))

/-! ## 2. Reading. -/

/-- The value of a run of decimal digits. -/
def digitsValue (cs : List Char) : Nat :=
  cs.foldl (fun n c => 10 * n + (c.toNat - '0'.toNat)) 0

/-- Takes a sign off; without one a number is not negative. -/
def signOf : List Char → Bool × List Char
  | '-' :: r => (true, r)
  | '+' :: r => (false, r)
  | r => (false, r)

/-- Takes an exponent off: `e`, a sign or none, and at least one digit. Where one of them is missing
    there is no exponent. -/
def exponentOf : List Char → Int × List Char
  | [] => (0, [])
  | c :: cs =>
    let (neg, r) := signOf cs
    let digits := r.takeWhile Char.isDigit
    if (c = 'e' ∨ c = 'E') ∧ ¬ digits.isEmpty then
      let n : Int := digitsValue digits
      (if neg then -n else n, r.dropWhile Char.isDigit)
    else (0, c :: cs)

/-- `m · 10^p` as the nearest single. Far outside the range of singles the power of ten is not
    formed: it is at least `8^p`, so the result is an infinity or a zero. -/
def ofScientific (neg : Bool) (m : Nat) (p : Int) : Single :=
  let size : Int := m.log2 + 3 * p
  if m = 0 ∨ (p < 0 ∧ size < -200) then withSign neg zero
  else if p > 0 ∧ size > 200 then infinity neg
  else ofRatio neg (m * Nat.pow 10 p.toNat) (Nat.pow 10 (-p).toNat)

/-- The longest unsigned decimal that a text starts with, and what follows it: digits, a point and
    digits, and an exponent. Either side of the point may be empty, but not both. -/
def magnitude? (neg : Bool) (cs : List Char) : Option (Single × List Char) :=
  let whole := cs.takeWhile Char.isDigit
  let (frac, r) := match cs.dropWhile Char.isDigit with
    | '.' :: r => (r.takeWhile Char.isDigit, r.dropWhile Char.isDigit)
    | r => ([], r)
  if whole.isEmpty ∧ frac.isEmpty then none
  else
    let (e, rest) := exponentOf r
    some (ofScientific neg (digitsValue (whole ++ frac)) (e - frac.length), rest)

/-- The longest decimal, with or without a sign, that a text starts with, and what follows it. -/
def decimal? (cs : List Char) : Option (Single × List Char) :=
  let (neg, r) := signOf cs
  magnitude? neg r

/-- Reads a number: a decimal with or without a sign, or `inf`, `infinity` or `nan` in any case. -/
def ofDecimal? (s : String) : Option Single :=
  let (neg, cs) := signOf s.toList
  let word := String.ofList (cs.map Char.toLower)
  if word = "inf" ∨ word = "infinity" then some (infinity neg)
  else if word = "nan" then some (withSign neg quietNaN)
  else match magnitude? neg cs with
    | some (x, []) => some x
    | _ => none

end QuakeProgs.Single
