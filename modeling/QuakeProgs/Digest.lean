/-
  File:      QuakeProgs/Digest.lean
  Subject:   FINGERPRINTS OF AN IMAGE: a 16-bit checksum and a 128-bit digest.

  * `crc16` -- the polynomial `x^16 + x^12 + x^5 + 1`, all ones at the start, most significant bit
    first, nothing turned over at the end; hosts compare it to see that they run the same image;
  * `md5` -- the digest that tells images apart when old behaviour is to be kept for one of them.
-/
import QuakeProgs.Bytes
import QuakeProgs.Text.Layout

namespace QuakeProgs

/-! ## 1. The checksum. -/

/-- Takes one bit off the checksum register. -/
def crcBit (r : UInt16) : UInt16 := if r ≥ 0x8000 then (r <<< 1) ^^^ 0x1021 else r <<< 1

/-- Takes one byte into the register. -/
def crcByte (r : UInt16) (b : UInt8) : UInt16 :=
  (List.range 8).foldl (fun r _ => crcBit r) (r ^^^ (b.toUInt16 <<< 8))

/-- The checksum of a byte string. -/
def crc16 (bytes : Bytes) : UInt16 := bytes.foldl crcByte 0xffff

/-! ## 2. The digest. -/

/-- A digest of 128 bits. -/
abbrev Digest := Vector UInt8 16

/-- Sixteen bytes as a digest. -/
def Digest.ofBytes? (bytes : Bytes) : Option Digest :=
  if h : bytes.length = 16 then some ⟨bytes.toArray, by simpa using h⟩ else none

def Digest.toBytes (d : Digest) : Bytes := d.toList

/-- A digest in hexadecimal. -/
def Digest.text (d : Digest) : String := Text.hex d.toList

namespace Md5

/-- The four registers. -/
structure Registers where
  a : UInt32 := 0x67452301
  b : UInt32 := 0xefcdab89
  c : UInt32 := 0x98badcfe
  d : UInt32 := 0x10325476

/-- One constant a step: the binary places of the sines of 1, 2, 3, … -/
def constants : Array UInt32 :=
  #[0xd76aa478, 0xe8c7b756, 0x242070db, 0xc1bdceee, 0xf57c0faf, 0x4787c62a,
    0xa8304613, 0xfd469501, 0x698098d8, 0x8b44f7af, 0xffff5bb1, 0x895cd7be,
    0x6b901122, 0xfd987193, 0xa679438e, 0x49b40821, 0xf61e2562, 0xc040b340,
    0x265e5a51, 0xe9b6c7aa, 0xd62f105d, 0x02441453, 0xd8a1e681, 0xe7d3fbc8,
    0x21e1cde6, 0xc33707d6, 0xf4d50d87, 0x455a14ed, 0xa9e3e905, 0xfcefa3f8,
    0x676f02d9, 0x8d2a4c8a, 0xfffa3942, 0x8771f681, 0x6d9d6122, 0xfde5380c,
    0xa4beea44, 0x4bdecfa9, 0xf6bb4b60, 0xbebfbc70, 0x289b7ec6, 0xeaa127fa,
    0xd4ef3085, 0x04881d05, 0xd9d4d039, 0xe6db99e5, 0x1fa27cf8, 0xc4ac5665,
    0xf4292244, 0x432aff97, 0xab9423a7, 0xfc93a039, 0x655b59c3, 0x8f0ccc92,
    0xffeff47d, 0x85845dd1, 0x6fa87e4f, 0xfe2ce6e0, 0xa3014314, 0x4e0811a1,
    0xf7537e82, 0xbd3af235, 0x2ad7d2bb, 0xeb86d391]

/-- How far each step turns its sum. -/
def turn (i : Nat) : UInt32 :=
  match i / 16, i % 4 with
  | 0, 0 => 7 | 0, 1 => 12 | 0, 2 => 17 | 0, _ => 22
  | 1, 0 => 5 | 1, 1 => 9 | 1, 2 => 14 | 1, _ => 20
  | 2, 0 => 4 | 2, 1 => 11 | 2, 2 => 16 | 2, _ => 23
  | _, 0 => 6 | _, 1 => 10 | _, 2 => 15 | _, _ => 21

def rotateLeft (x n : UInt32) : UInt32 := (x <<< n) ||| (x >>> (32 - n))

/-- The mixing function of step `i` and the message word it takes in. -/
def mix (r : Registers) (i : Nat) : UInt32 × Nat :=
  match i / 16 with
  | 0 => ((r.b &&& r.c) ||| (~~~r.b &&& r.d), i)
  | 1 => ((r.d &&& r.b) ||| (~~~r.d &&& r.c), (5 * i + 1) % 16)
  | 2 => (r.b ^^^ r.c ^^^ r.d, (3 * i + 5) % 16)
  | _ => (r.c ^^^ (r.b ||| ~~~r.d), (7 * i) % 16)

def step (words : Array UInt32) (r : Registers) (i : Nat) : Registers :=
  let (f, g) := mix r i
  let sum := f + r.a + constants.getD i 0 + words.getD g 0
  { a := r.d, d := r.c, c := r.b, b := r.b + rotateLeft sum (turn i) }

/-- Takes one block of sixteen words in. -/
def block (r : Registers) (words : Array UInt32) : Registers :=
  let s := (List.range 64).foldl (step words) r
  { a := r.a + s.a, b := r.b + s.b, c := r.c + s.c, d := r.d + s.d }

/-- The message, a one bit, zeros up to eight bytes short of a block, and the length in bits. -/
def padded (bytes : Bytes) : Bytes :=
  let n := bytes.length
  let bits := 8 * n
  bytes ++ 0x80 :: List.replicate ((119 - n % 64) % 64) 0
    ++ Bytes.ofWord bits.toUInt32 ++ Bytes.ofWord (bits / 0x100000000).toUInt32

/-- Takes `n` blocks in. -/
def blocks : Nat → Registers → Bytes → Registers
  | 0, r, _ => r
  | n + 1, r, bytes =>
    match Reader.many Reader.word 16 bytes with
    | some (words, rest) => blocks n (block r words.toArray) rest
    | none => r

end Md5

/-- The MD5 digest of a byte string. -/
def md5 (bytes : Bytes) : Digest :=
  let message := Md5.padded bytes
  let r := Md5.blocks (message.length / 64) {} message
  ⟨(Bytes.ofWord r.a ++ Bytes.ofWord r.b ++ Bytes.ofWord r.c ++ Bytes.ofWord r.d).toArray, rfl⟩

end QuakeProgs
