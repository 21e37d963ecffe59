/-
  File:      QuakeProgs/Text/Utf8.lean
  Subject:   BYTES READ AS TEXT: UTF-8 with every fault replaced.

  * `Utf8.decode` -- each longest run of bytes that begins a character but cannot be completed
    becomes one replacement character; decoding then goes on with the byte that broke the run;
  * `Utf8.encode` -- the bytes of a text;
  * `Utf8.fault?` -- where bytes stop being a text.
-/

namespace QuakeProgs.Utf8

/-- What stands for bytes that are no character. -/
def replacement : Char := Char.ofNat 0xFFFD

/-- A byte that continues a character. -/
def isTail (b : UInt8) : Bool := 0x80 ≤ b && b ≤ 0xBF

/-- The bytes that may follow the first byte of a character of three bytes: no overlong form and
    no surrogate begins this way. -/
def isSecondOfThree (a b : UInt8) : Bool :=
  if a = 0xE0 then 0xA0 ≤ b && b ≤ 0xBF
  else if a = 0xED then 0x80 ≤ b && b ≤ 0x9F
  else isTail b

/-- The bytes that may follow the first byte of a character of four bytes. -/
def isSecondOfFour (a b : UInt8) : Bool :=
  if a = 0xF0 then 0x90 ≤ b && b ≤ 0xBF
  else if a = 0xF4 then 0x80 ≤ b && b ≤ 0x8F
  else isTail b

/-- The six bits a tail byte carries. -/
def tailBits (b : UInt8) : Nat := b.toNat % 64

/-- The characters of a byte string, faults replaced. -/
def decode : List UInt8 → List Char
  | [] => []
  | a :: r =>
    if a < 0x80 then Char.ofNat a.toNat :: decode r
    else if 0xC2 ≤ a ∧ a ≤ 0xDF then
      match r with
      | b :: r' =>
        if isTail b then Char.ofNat (a.toNat % 32 * 64 + tailBits b) :: decode r'
        else replacement :: decode (b :: r')
      | [] => [replacement]
    else if 0xE0 ≤ a ∧ a ≤ 0xEF then
      match r with
      | b :: r' =>
        if isSecondOfThree a b then
          match r' with
          | c :: r'' =>
            if isTail c then
              Char.ofNat (a.toNat % 16 * 4096 + tailBits b * 64 + tailBits c) :: decode r''
            else replacement :: decode (c :: r'')
          | [] => [replacement]
        else replacement :: decode (b :: r')
      | [] => [replacement]
    else if 0xF0 ≤ a ∧ a ≤ 0xF4 then
      match r with
      | b :: r' =>
        if isSecondOfFour a b then
          match r' with
          | c :: r'' =>
            if isTail c then
              match r'' with
              | d :: r''' =>
                if isTail d then
                  Char.ofNat (a.toNat % 8 * 262144 + tailBits b * 4096 + tailBits c * 64 + tailBits d)
                    :: decode r'''
                else replacement :: decode (d :: r''')
              | [] => [replacement]
            else replacement :: decode (c :: r'')
          | [] => [replacement]
        else replacement :: decode (b :: r')
      | [] => [replacement]
    else replacement :: decode r

/-- A byte string as text. -/
def toText (bytes : List UInt8) : String := String.ofList (decode bytes)

/-- The bytes of a text. -/
def encode (s : String) : List UInt8 := s.toUTF8.toList

/-- How a run of bytes begins: with a character, with bytes that cannot become one, or with one that
    is cut off. -/
inductive Front where
  | char (length : Nat)
  | broken (length : Nat)
  | cut
  deriving DecidableEq, Inhabited

/-- Goes on with a character whose first `length` bytes were read, as long as the next ones fit. -/
def follow (length : Nat) : List (UInt8 → Bool) → List UInt8 → Front
  | [], _ => .char length
  | _ :: _, [] => .cut
  | fits :: rest, b :: bytes => if fits b then follow (length + 1) rest bytes else .broken length

/-- How the bytes `a :: r` begin. -/
def front (a : UInt8) (r : List UInt8) : Front :=
  if a < 0x80 then .char 1
  else if 0xC2 ≤ a ∧ a ≤ 0xDF then follow 1 [isTail] r
  else if 0xE0 ≤ a ∧ a ≤ 0xEF then follow 1 [isSecondOfThree a, isTail] r
  else if 0xF0 ≤ a ∧ a ≤ 0xF4 then follow 1 [isSecondOfFour a, isTail, isTail] r
  else .broken 1

/-- Where bytes stop being a text, and how many of them are wrong; no number if they end too soon. -/
structure Fault where
  index : Nat
  length : Option Nat
  deriving DecidableEq, Inhabited

def Fault.message (f : Fault) : String :=
  match f.length with
  | some n => s!"invalid utf-8 sequence of {n} bytes from index {f.index}"
  | none => s!"incomplete utf-8 byte sequence from index {f.index}"

/-- The first fault from position `index` on, the next `skip` bytes being known to be good. -/
def faultFrom (index skip : Nat) : List UInt8 → Option Fault
  | [] => none
  | a :: r =>
    match skip with
    | n + 1 => faultFrom (index + 1) n r
    | 0 =>
      match front a r with
      | .char length => faultFrom (index + 1) (length - 1) r
      | .broken length => some ⟨index, some length⟩
      | .cut => some ⟨index, none⟩

/-- The first fault in a run of bytes; none in the bytes of a text. -/
def fault? (bytes : List UInt8) : Option Fault := faultFrom 0 0 bytes

end QuakeProgs.Utf8
