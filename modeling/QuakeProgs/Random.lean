/-
  File:      QuakeProgs/Random.lean
  Subject:   THE RANDOM SOURCE: the ChaCha stream with eight rounds, from a 64-bit seed.

  * `Random` -- a key and the number of words drawn so far;
  * `Random.ofSeed` -- the key from a seed;
  * `Random.word` -- word `n` of the stream: block `n / 16`, word `n % 16`;
  * `Random.next` -- draws a word.
-/

namespace QuakeProgs

/-- The state of the random source. -/
structure Random where
  key : Array UInt32
  drawn : Nat := 0
  deriving DecidableEq, Inhabited

namespace Random

def rotateLeft (x n : UInt32) : UInt32 := (x <<< n) ||| (x >>> (32 - n))

def rotateRight (x n : UInt32) : UInt32 := (x >>> (n % 32)) ||| (x <<< ((32 - n % 32) % 32))

/-! ## 1. The seed. -/

/-- The next state of the generator that spreads the seed. -/
def spread (s : UInt64) : UInt64 := s * 6364136223846793005 + 11634580027462260723

/-- The word a state of that generator yields. -/
def spreadWord (s : UInt64) : UInt32 :=
  rotateRight ((((s >>> 18) ^^^ s) >>> 27).toUInt32) (s >>> 59).toUInt32

/-- `n` words from a seed. -/
def keyWords : Nat → UInt64 → List UInt32
  | 0, _ => []
  | n + 1, s => let s := spread s; spreadWord s :: keyWords n s

def ofSeed (seed : UInt64) : Random := { key := (keyWords 8 seed).toArray }

/-! ## 2. The stream. -/

/-- Changes word `i`. -/
def put (s : Array UInt32) (i : Nat) (w : UInt32) : Array UInt32 := s.setIfInBounds i w

/-- Half of a quarter round: add, exclusive or, turn. -/
def mix (s : Array UInt32) (a b d : Nat) (turn : UInt32) : Array UInt32 :=
  let s := put s a (s.getD a 0 + s.getD b 0)
  put s d (rotateLeft (s.getD d 0 ^^^ s.getD a 0) turn)

def quarterRound (s : Array UInt32) (a b c d : Nat) : Array UInt32 :=
  let s := mix s a b d 16
  let s := mix s c d b 12
  let s := mix s a b d 8
  mix s c d b 7

/-- A round down the columns and a round along the diagonals. -/
def doubleRound (s : Array UInt32) : Array UInt32 :=
  let s := quarterRound s 0 4 8 12
  let s := quarterRound s 1 5 9 13
  let s := quarterRound s 2 6 10 14
  let s := quarterRound s 3 7 11 15
  let s := quarterRound s 0 5 10 15
  let s := quarterRound s 1 6 11 12
  let s := quarterRound s 2 7 8 13
  quarterRound s 3 4 9 14

/-- Sixteen words of the stream: four constants, the key, the block number and a zero nonce, mixed
    in eight rounds and added to themselves. -/
def block (key : Array UInt32) (n : Nat) : Array UInt32 :=
  let start := #[0x61707865, 0x3320646e, 0x79622d32, 0x6b206574] ++ key
    ++ #[n.toUInt32, (n / 0x100000000).toUInt32, 0, 0]
  let mixed := (List.range 4).foldl (fun s _ => doubleRound s) start
  start.zipWith (· + ·) mixed

/-- Word `n` of the stream. -/
def word (r : Random) (n : Nat) : UInt32 := (block r.key (n / 16)).getD (n % 16) 0

/-- Draws the next word. -/
def next (r : Random) : UInt32 × Random := (r.word r.drawn, { r with drawn := r.drawn + 1 })

end Random

end QuakeProgs
