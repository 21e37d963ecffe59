/-
  File:      QuakeProgs/Binary.lean
  Subject:   BINARY FORMATS: what a floating-point pattern stands for, apart from its width.

  * `Binary.View` -- a pattern as NaN, an infinity or `± m · 2^e` with `m` and `e` exact;
  * `Binary.Format` -- the three numbers that tell one width from another;
  * `Binary.single`, `Binary.double` -- the widths of 32 and 64 bits.
-/

namespace QuakeProgs.Binary

/-- A pattern taken apart: `finite neg m e` is `± m · 2^e`. -/
inductive View where
  | nan
  | infinite (neg : Bool)
  | finite (neg : Bool) (m : Nat) (e : Int)

/-- A width of binary numbers. -/
structure Format where
  /-- The least significand of a number of full precision. -/
  least : Nat
  /-- The exponent of the smallest number above zero. -/
  lowest : Int
  /-- So many decimal digits tell the numbers apart. -/
  digits : Nat

def single : Format := ⟨0x800000, -149, 9⟩

def double : Format := ⟨0x10000000000000, -1074, 17⟩

end QuakeProgs.Binary
