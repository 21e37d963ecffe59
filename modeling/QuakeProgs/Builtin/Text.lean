/-
  File:      QuakeProgs/Builtin/Text.lean
  Subject:   NUMBERS AS TEXT AND BACK, and pieces of strings, as programs see them.

  * `Single.console` -- a whole number without a fraction, any other with one place;
  * `Single.ofLeading` -- the number a text starts with, zero if it starts with none;
  * `Bytes.piece` -- a part of a string, cut to what there is.
-/
import QuakeProgs.Diagnostics.View

namespace QuakeProgs

namespace Single

/-- A whole number below `2^31` in magnitude is written without a fraction, any other number with one
    place and at least five characters. -/
def console (x : Single) : String :=
  if x.numEq x.trunc && x.abs.lt (ofNat 0x80000000) then toString x.toInt32 else x.column

/-- The number that the longest decimal at the start of a text stands for; blanks before it do not
    count. -/
def ofLeading (s : String) : Single :=
  match decimal? (Text.trimStart s).toList with
  | some (x, _) => x
  | none => zero

end Single

/-- The part of a string from a position on, of a length; a negative length means all that is left. -/
def Bytes.piece (s : Bytes) (start length : Single) : Bytes :=
  let most : Int := 0xffffffffffffffff
  let rest := s.drop (start.toIntWithin 0 most).toNat
  if length.lt .zero then rest else rest.take (length.toIntWithin 0 most).toNat

end QuakeProgs
