/-! Reproducible random words: the ChaCha stream cipher with twelve rounds, keyed by expanding a
64-bit seed. The words of block after block are given out in order. -/
namespace VerifierBench

/-- A key, the number of the next block, and the words of the current block not given out yet. -/
structure WordStream where
  key : Vector UInt32 8
  block : UInt64
  pending : List UInt32
  deriving DecidableEq

namespace WordStream

def rotateLeft (x n : UInt32) : UInt32 := (x <<< n) ||| (x >>> (32 - n))

def rotateRight (x n : UInt32) : UInt32 := (x >>> n) ||| (x <<< ((32 - n) % 32))

/-- One round of mixing on four of the sixteen words. -/
def quarterRound (s : Vector UInt32 16) (i j k l : Fin 16) : Vector UInt32 16 :=
  let a := s[i] + s[j]
  let d := rotateLeft (s[l] ^^^ a) 16
  let c := s[k] + d
  let b := rotateLeft (s[j] ^^^ c) 12
  let a := a + b
  let d := rotateLeft (d ^^^ a) 8
  let c := c + d
  let b := rotateLeft (b ^^^ c) 7
  (((s.set i a).set j b).set k c).set l d

/-- A round on the columns followed by a round on the diagonals. -/
def doubleRound (s : Vector UInt32 16) : Vector UInt32 16 :=
  let s := quarterRound s 0 4 8 12
  let s := quarterRound s 1 5 9 13
  let s := quarterRound s 2 6 10 14
  let s := quarterRound s 3 7 11 15
  let s := quarterRound s 0 5 10 15
  let s := quarterRound s 1 6 11 12
  let s := quarterRound s 2 7 8 13
  quarterRound s 3 4 9 14

/-- The constants, the key, the block number and an empty nonce. -/
def initialState (key : Vector UInt32 8) (block : UInt64) : Vector UInt32 16 :=
  #v[0x61707865, 0x3320646e, 0x79622d32, 0x6b206574,
    key[0], key[1], key[2], key[3], key[4], key[5], key[6], key[7],
    block.toUInt32, (block >>> 32).toUInt32, 0, 0]

def blockWords (key : Vector UInt32 8) (block : UInt64) : Vector UInt32 16 :=
  let s := initialState key block
  let mixed := Nat.repeat doubleRound 6 s
  Vector.zipWith (· + ·) s mixed

/-- One step of the generator that expands a seed into a key. -/
def seedStep (s : UInt64) : UInt64 := s * 6364136223846793005 + 11634580027462260723

/-- The output of the expanding generator. -/
def seedWord (s : UInt64) : UInt32 :=
  rotateRight (((s >>> 18) ^^^ s) >>> 27).toUInt32 (s >>> 59).toUInt32

/-- The stream for a seed, at its first block. -/
def seeded (seed : UInt64) : WordStream :=
  { key := Vector.ofFn fun i => seedWord (Nat.repeat seedStep (i.val + 1) seed)
    block := 0
    pending := [] }

def next (s : WordStream) : UInt32 × WordStream :=
  match s.pending with
  | w :: ws => (w, { s with pending := ws })
  | [] =>
    let words := blockWords s.key s.block
    (words[0], { s with block := s.block + 1, pending := words.toList.drop 1 })

end WordStream
end VerifierBench
