/-!
A reproducible stream of 64-bit words: the ChaCha stream cipher with twelve rounds, an all-zero
nonce and a key that is spread out from one 64-bit seed.
-/

namespace CallCatalog.Keystream

def rotateLeft (x n : UInt32) : UInt32 := (x <<< n) ||| (x >>> (32 - n))

def rotateRight (x n : UInt32) : UInt32 := (x >>> n) ||| (x <<< (32 - n))

/-- One step of the linear congruential generator that spreads out a seed. -/
def spreadStep (state : UInt64) : UInt64 := state * 6364136223846793005 + 11634580027462260723

/-- The word that a state of the generator shows: its upper bits, mixed and rotated by the uppermost
ones. -/
def spreadWord (state : UInt64) : UInt32 :=
  rotateRight ((((state >>> 18) ^^^ state) >>> 27).toUInt32) (state >>> 59).toUInt32

def spreadState (seed : UInt64) : Nat → UInt64
  | 0 => seed
  | n + 1 => spreadStep (spreadState seed n)

def key (seed : UInt64) : Vector UInt32 8 :=
  Vector.ofFn fun i => spreadWord (spreadState seed (i.val + 1))

/-- The sixteen words that a block is computed from and consists of. -/
abbrev Block := Vector UInt32 16

def quarterRound (s : Block) (a b c d : Fin 16) : Block :=
  let s := s.set a (s[a] + s[b])
  let s := s.set d (rotateLeft (s[d] ^^^ s[a]) 16)
  let s := s.set c (s[c] + s[d])
  let s := s.set b (rotateLeft (s[b] ^^^ s[c]) 12)
  let s := s.set a (s[a] + s[b])
  let s := s.set d (rotateLeft (s[d] ^^^ s[a]) 8)
  let s := s.set c (s[c] + s[d])
  s.set b (rotateLeft (s[b] ^^^ s[c]) 7)

def doubleRound (s : Block) : Block :=
  let s := quarterRound s 0 4 8 12
  let s := quarterRound s 1 5 9 13
  let s := quarterRound s 2 6 10 14
  let s := quarterRound s 3 7 11 15
  let s := quarterRound s 0 5 10 15
  let s := quarterRound s 1 6 11 12
  let s := quarterRound s 2 7 8 13
  quarterRound s 3 4 9 14

/-- What block number `n` is computed from: the cipher's constants, the key, the block number and
the nonce. -/
def start (seed : UInt64) (n : UInt64) : Block :=
  let k := key seed
  #v[0x61707865, 0x3320646e, 0x79622d32, 0x6b206574,
    k[0], k[1], k[2], k[3], k[4], k[5], k[6], k[7],
    n.toUInt32, (n >>> 32).toUInt32, 0, 0]

def block (seed : UInt64) (n : UInt64) : Block :=
  let s := start seed n
  let mixed := doubleRound (doubleRound (doubleRound (doubleRound (doubleRound (doubleRound s)))))
  Vector.zipWith (· + ·) mixed s

/-- Word number `n` of the stream: a block holds eight of them, each with its lower half first. -/
def word (seed : UInt64) (n : Nat) : UInt64 :=
  let b := block seed (UInt64.ofNat (n / 8))
  have h : n % 8 < 8 := Nat.mod_lt _ (by decide)
  let low := b.get ⟨2 * (n % 8), by omega⟩
  let high := b.get ⟨2 * (n % 8) + 1, by omega⟩
  high.toUInt64 <<< 32 ||| low.toUInt64

end CallCatalog.Keystream
