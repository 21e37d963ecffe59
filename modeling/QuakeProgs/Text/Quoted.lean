/-
  File:      QuakeProgs/Text/Quoted.lean
  Subject:   QUOTED TEXT: a text between double quotes in which every character can be seen.

  * `escaped` -- a character as it stands between the quotes;
  * `quoted` -- a text with its quotes.
-/
import QuakeProgs.Text.Printable

namespace QuakeProgs.Text

/-- A character as it stands in a quoted text: quotes, backslashes and the common control characters
    have escapes of their own, others that cannot be seen are written by their number. -/
def escaped (c : Char) : List Char :=
  if c = '"' then ['\\', '"']
  else if c = '\\' then ['\\', '\\']
  else if c = '\n' then ['\\', 'n']
  else if c = '\r' then ['\\', 'r']
  else if c = '\t' then ['\\', 't']
  else if c.toNat = 0 then ['\\', '0']
  else if isPrintable c then [c]
  else "\\u\x7b".toList ++ Nat.toDigits 16 c.toNat ++ ['\x7d']

/-- A text between double quotes. -/
def quoted (s : String) : String := String.ofList ('"' :: s.toList.flatMap escaped ++ ['"'])

end QuakeProgs.Text
