/-!
# Keystream

The random words of the model are the keystream of the ChaCha block function with eight rounds. A
word is a function of the key and of its position alone, so a stream needs no buffer: reading on is
counting on.

The key is made of a 64-bit seed by a permuted congruential generator, one word per step.
-/

namespace RadioChannel

/-- The eight words of a stream's key. -/
abbrev StreamKey := Vector UInt32 8

namespace Keystream

/-- A word rotated to the left. -/
def rotateLeft (x : UInt32) (n : UInt32) : UInt32 :=
  (x <<< n) ||| (x >>> (32 - n))

/-- A word rotated to the right, by less than a full turn. -/
def rotateRight (x : UInt32) (n : UInt32) : UInt32 :=
  (x >>> n) ||| (x <<< ((32 - n) % 32))

/-! ## The key -/

/-- One step of the congruential generator, modulo `2 ^ 64`. -/
def advanceSeed (s : UInt64) : UInt64 := s * 6364136223846793005 + 11634580027462260723

/-- The word shown by a state of the generator: its high half, folded and rotated by its top bits. -/
def seedWord (s : UInt64) : UInt32 :=
  rotateRight (((s >>> 18) ^^^ s) >>> 27).toUInt32 (s >>> 59).toUInt32

/-- The state of the generator after so many steps. -/
def seedState (seed : UInt64) : Nat → UInt64
  | 0 => seed
  | n + 1 => advanceSeed (seedState seed n)

/-- The key of a seed: the words of the first eight states after it. -/
def keyOfSeed (seed : UInt64) : StreamKey :=
  Vector.ofFn fun i => seedWord (seedState seed (i.val + 1))

/-! ## The block function -/

/-- The sixteen words of the cipher's state. -/
abbrev Block := Vector UInt32 16

/-- The quarter round on the words at four places. -/
def quarterRound (s : Block) (a b c d : Fin 16) : Block :=
  let s := s.set a (s[a] + s[b])
  let s := s.set d (rotateLeft (s[d] ^^^ s[a]) 16)
  let s := s.set c (s[c] + s[d])
  let s := s.set b (rotateLeft (s[b] ^^^ s[c]) 12)
  let s := s.set a (s[a] + s[b])
  let s := s.set d (rotateLeft (s[d] ^^^ s[a]) 8)
  let s := s.set c (s[c] + s[d])
  s.set b (rotateLeft (s[b] ^^^ s[c]) 7)

/-- Two rounds: the four columns, then the four diagonals. -/
def doubleRound (s : Block) : Block :=
  let s := quarterRound s 0 4 8 12
  let s := quarterRound s 1 5 9 13
  let s := quarterRound s 2 6 10 14
  let s := quarterRound s 3 7 11 15
  let s := quarterRound s 0 5 10 15
  let s := quarterRound s 1 6 11 12
  let s := quarterRound s 2 7 8 13
  quarterRound s 3 4 9 14

/-- The state a block starts from: the constants, the key, a 64-bit counter and an empty nonce. -/
def initialBlock (key : StreamKey) (counter : UInt64) : Block :=
  #v[0x61707865, 0x3320646e, 0x79622d32, 0x6b206574,
    key[0], key[1], key[2], key[3], key[4], key[5], key[6], key[7],
    counter.toUInt32, (counter >>> 32).toUInt32, 0, 0]

/-- Eight rounds. -/
def rounds (s : Block) : Block :=
  doubleRound (doubleRound (doubleRound (doubleRound s)))

/-- One block of the keystream. -/
def block (key : StreamKey) (counter : UInt64) : Block :=
  let start := initialBlock key counter
  (rounds start).zipWith (· + ·) start

/-- The keystream's word at a position. -/
def word (key : StreamKey) (position : Nat) : UInt32 :=
  have inBlock : position % 16 < 16 := Nat.mod_lt _ (by decide)
  (block key (position / 16).toUInt64)[position % 16]

end Keystream

end RadioChannel
