/-
  File:      QuakeProgs/Double.lean
  Subject:   DOUBLES: binary64 patterns. No program computes with them; they occur in saved states
             and are shown or rounded to singles.

  * `Double.view` -- a double as NaN, an infinity or `± m · 2^e`;
  * `Double.ofSingle`, `Double.toSingle` -- to the wider format exactly, to the narrower one rounded;
  * `Double.text` -- the shortest decimal that reads back, a whole number with a point too.
-/
import QuakeProgs.Decimal
import QuakeProgs.Single

namespace QuakeProgs

/-- A binary64 pattern. -/
structure Double where
  bits : UInt64
  deriving DecidableEq, Inhabited

namespace Double

def isNegative (x : Double) : Bool := x.bits ≥ 0x8000000000000000

/-- The exponent's eleven bits. -/
def exponentField (x : Double) : Nat := x.bits.toNat / 0x10000000000000 % 0x800

/-- The fraction's 52 bits. -/
def fraction (x : Double) : Nat := x.bits.toNat % 0x10000000000000

def view (x : Double) : Binary.View :=
  let neg := x.isNegative
  if x.exponentField = 2047 then (if x.fraction = 0 then .infinite neg else .nan)
  else if x.exponentField = 0 then .finite neg x.fraction (-1074)
  else .finite neg (0x10000000000000 + x.fraction) ((x.exponentField : Int) - 1075)

/-- The pattern with these parts. -/
def ofParts (neg : Bool) (expo frac : Nat) : Double :=
  ⟨((if neg then 0x8000000000000000 else 0) + expo * 0x10000000000000 + frac).toUInt64⟩

/-- The same number in the wider format. A NaN keeps its payload at the top and is quiet. -/
def ofSingle (x : Single) : Double :=
  match x.view with
  | .nan => ofParts x.isNegative 2047 ((x.quiet.bits.toNat % 0x800000) <<< 29)
  | .infinite neg => ofParts neg 2047 0
  | .finite neg m e =>
    if m = 0 then ofParts neg 0 0
    else
      -- the leading bit moves up to the place that the format leaves out
      let up := 52 - m.log2
      ofParts neg (e - up + 1075).toNat (m <<< up - 0x10000000000000)

/-- The nearest single, a tie to the even pattern. A NaN keeps the top of its payload and is
    quiet. -/
def toSingle (x : Double) : Single :=
  match x.view with
  | .nan => .withSign x.isNegative ⟨(0x7fc00000 + x.fraction / 0x20000000 % 0x400000).toUInt32⟩
  | .infinite neg => .infinity neg
  | .finite neg m e => .ofRatio neg (m <<< e.toNat) (1 <<< (-e).toNat)

/-- The shortest decimal that reads back, with a point in every finite number: `1.0`, `0.1`,
    `-0.0`, `inf`, `NaN`. -/
def text (x : Double) : String :=
  let s := Decimal.text Binary.double x.view
  match x.view with
  | .finite _ _ _ => if s.contains '.' then s else s ++ ".0"
  | _ => s

end Double

end QuakeProgs
