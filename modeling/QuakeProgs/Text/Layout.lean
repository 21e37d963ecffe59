/-
  File:      QuakeProgs/Text/Layout.lean
  Subject:   COLUMNS AND BLANKS: padding to a width, trimming, hexadecimal.

  * `padLeft`, `padRight` -- fill to a number of characters; longer text stays as it is;
  * `isBlank` -- the characters with the White_Space property;
  * `trimStart`, `trimEnd` -- without leading or trailing blanks;
  * `hex`, `ofHex` -- two lower-case digits for each byte.
-/

namespace QuakeProgs.Text

def spaces (n : Nat) : String := String.ofList (List.replicate n ' ')

/-- Fills on the left up to `width` characters. -/
def padLeft (width : Nat) (s : String) : String := spaces (width - s.length) ++ s

/-- Fills on the right up to `width` characters. -/
def padRight (width : Nat) (s : String) : String := s ++ spaces (width - s.length)

/-- White space: the blanks and line ends of ASCII and the separators beyond it. -/
def isBlank (c : Char) : Bool :=
  let n := c.toNat
  (0x09 ≤ n && n ≤ 0x0D) || n = 0x20 || n = 0x85 || n = 0xA0 || n = 0x1680
    || (0x2000 ≤ n && n ≤ 0x200A) || n = 0x2028 || n = 0x2029 || n = 0x202F || n = 0x205F
    || n = 0x3000

def trimStart (s : String) : String := String.ofList (s.toList.dropWhile isBlank)

def trimEnd (s : String) : String :=
  String.ofList (s.toList.reverse.dropWhile isBlank).reverse

/-- One hexadecimal digit, lower case. -/
def hexDigit (n : Nat) : Char := if n < 10 then Char.ofNat (48 + n) else Char.ofNat (87 + n)

/-- A byte string in hexadecimal, two digits a byte. -/
def hex (bytes : List UInt8) : String :=
  String.ofList (bytes.flatMap fun b => [hexDigit (b.toNat / 16), hexDigit (b.toNat % 16)])

/-- The value of a hexadecimal digit, lower case. -/
def hexValue (c : Char) : Nat := if c.isDigit then c.toNat - 48 else c.toNat - 87

/-- The bytes of pairs of hexadecimal digits; a last digit without a partner is dropped. -/
def ofHexDigits : List Char → List UInt8
  | a :: b :: rest => (16 * hexValue a + hexValue b).toUInt8 :: ofHexDigits rest
  | _ => []

/-- A byte string from hexadecimal. -/
def ofHex (s : String) : List UInt8 := ofHexDigits s.toList

/-- A word in hexadecimal: `0x` and eight digits. -/
def hexWord (w : UInt32) : String :=
  String.ofList ('0' :: 'x' :: (List.range 8).map fun i => hexDigit ((w.toNat >>> (4 * (7 - i))) % 16))

end QuakeProgs.Text
