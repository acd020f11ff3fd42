import TezosSigner.Bytes

/-!
# BLAKE2b

A streaming state holds eight chaining words, the number of bytes already
compressed, and at most one block of bytes still to be compressed. A full
block waits until another byte arrives, because the last block is compressed
with a mark. Feeding a state byte by byte or in any chunks is the same, since
a chunk is absorbed one byte after the other.
-/

namespace TezosSigner.Hash

namespace Blake2b

/-- The number of bytes compressed at a time. -/
def blockSize : Nat := 128

/-- The initial chaining words, before the digest size is mixed in. -/
def start : Vector UInt64 8 :=
  #v[0x6a09e667f3bcc908, 0xbb67ae8584caa73b, 0x3c6ef372fe94f82b, 0xa54ff53a5f1d36f1,
    0x510e527fade682d1, 0x9b05688c2b3e6c1f, 0x1f83d9abfb41bd6b, 0x5be0cd19137e2179]

/-- The places of the eight mixing steps of a round: four columns, then four diagonals. -/
def places : List (Fin 16 × Fin 16 × Fin 16 × Fin 16) :=
  [(0, 4, 8, 12), (1, 5, 9, 13), (2, 6, 10, 14), (3, 7, 11, 15),
    (0, 5, 10, 15), (1, 6, 11, 12), (2, 7, 8, 13), (3, 4, 9, 14)]

/-- The pairs of message words that the eight mixing steps take in each of the twelve rounds. -/
def schedule : List (List (Fin 16 × Fin 16)) :=
  [[(0, 1), (2, 3), (4, 5), (6, 7), (8, 9), (10, 11), (12, 13), (14, 15)],
    [(14, 10), (4, 8), (9, 15), (13, 6), (1, 12), (0, 2), (11, 7), (5, 3)],
    [(11, 8), (12, 0), (5, 2), (15, 13), (10, 14), (3, 6), (7, 1), (9, 4)],
    [(7, 9), (3, 1), (13, 12), (11, 14), (2, 6), (5, 10), (4, 0), (15, 8)],
    [(9, 0), (5, 7), (2, 4), (10, 15), (14, 1), (11, 12), (6, 8), (3, 13)],
    [(2, 12), (6, 10), (0, 11), (8, 3), (4, 13), (7, 5), (15, 14), (1, 9)],
    [(12, 5), (1, 15), (14, 13), (4, 10), (0, 7), (6, 3), (9, 2), (8, 11)],
    [(13, 11), (7, 14), (12, 1), (3, 9), (5, 0), (15, 4), (8, 6), (2, 10)],
    [(6, 15), (14, 9), (11, 3), (0, 8), (12, 2), (13, 7), (1, 4), (10, 5)],
    [(10, 2), (8, 4), (7, 6), (1, 5), (15, 11), (9, 14), (3, 12), (13, 0)],
    [(0, 1), (2, 3), (4, 5), (6, 7), (8, 9), (10, 11), (12, 13), (14, 15)],
    [(14, 10), (4, 8), (9, 15), (13, 6), (1, 12), (0, 2), (11, 7), (5, 3)]]

def rotateRight (word distance : UInt64) : UInt64 :=
  (word >>> distance) ||| (word <<< (64 - distance))

def mix (v : Vector UInt64 16) (a b c d : Fin 16) (x y : UInt64) : Vector UInt64 16 :=
  let a₁ := v[a] + v[b] + x
  let d₁ := rotateRight (v[d] ^^^ a₁) 32
  let c₁ := v[c] + d₁
  let b₁ := rotateRight (v[b] ^^^ c₁) 24
  let a₂ := a₁ + b₁ + y
  let d₂ := rotateRight (d₁ ^^^ a₂) 16
  let c₂ := c₁ + d₂
  let b₂ := rotateRight (b₁ ^^^ c₂) 63
  (((v.set a a₂).set b b₂).set c c₂).set d d₂

def round (message : Vector UInt64 16) (v : Vector UInt64 16)
    (order : List (Fin 16 × Fin 16)) : Vector UInt64 16 :=
  (places.zip order).foldl
    (fun v ((a, b, c, d), (x, y)) => mix v a b c d message[x] message[y]) v

/-- The sixteen little-endian words of a block, with zeros behind a short one. -/
def blockWords (block : Bytes) : Vector UInt64 16 :=
  Vector.ofFn fun i =>
    UInt64.ofNat (Bytes.toNat (((block.drop (8 * i.val)).take 8).reverse))

/-- The working words of a block: the chain, and the initial words with the byte
count and the mark of the last block mixed in. -/
def workingWords (chain : Vector UInt64 8) (count : Nat) (last : Bool) : Vector UInt64 16 :=
  Vector.ofFn fun i =>
    if h : i.val < 8 then chain[i.val]
    else
      -- The byte count is mixed into two words, its low half first.
      let word := start[i.val - 8]
      if i = 12 then word ^^^ UInt64.ofNat count
      else if i = 13 then word ^^^ UInt64.ofNat (count / UInt64.size)
      else if i = 14 ∧ last then ~~~word
      else word

/-- Updates the chaining words by one block, given the number of bytes up to its end. -/
def compress (chain : Vector UInt64 8) (block : Bytes) (count : Nat) (last : Bool) :
    Vector UInt64 8 :=
  let mixed := schedule.foldl (round (blockWords block)) (workingWords chain count last)
  Vector.ofFn fun i => chain[i] ^^^ mixed[i.val] ^^^ mixed[i.val + 8]

/-- A hash in progress, for a digest of `size` bytes. -/
structure State (size : Nat) where
  chain : Vector UInt64 8
  /-- The number of bytes already compressed. -/
  count : Nat
  /-- The bytes not yet compressed, never more than a block. -/
  waiting : Bytes
  waiting_le : waiting.length ≤ blockSize
deriving DecidableEq

namespace State

variable {size : Nat}

def empty : State size where
  chain := start.set 0 (start[0] ^^^ 0x01010000 ^^^ UInt64.ofNat size)
  count := 0
  waiting := []
  waiting_le := Nat.zero_le _

/-- Absorbs a byte, compressing a waiting block that it does not fit into. -/
def absorbByte (state : State size) (byte : UInt8) : State size :=
  if h : state.waiting.length < blockSize then
    { chain := state.chain
      count := state.count
      waiting := state.waiting ++ [byte]
      waiting_le := by rw [List.length_append]; exact h }
  else
    -- Only now is it known that the waiting block is not the last one.
    { chain := compress state.chain state.waiting (state.count + blockSize) false
      count := state.count + blockSize
      waiting := [byte]
      waiting_le := by simp [blockSize] }

def absorb (state : State size) (bytes : Bytes) : State size :=
  bytes.foldl absorbByte state

/-- Absorbing two strings in turn is absorbing their concatenation. -/
theorem absorb_append (state : State size) (first second : Bytes) :
    state.absorb (first ++ second) = (state.absorb first).absorb second :=
  List.foldl_append

/-- The chaining words behind the last block. -/
def finish (state : State size) : Vector UInt64 8 :=
  compress state.chain state.waiting (state.count + state.waiting.length) true

/-- The digest of everything absorbed: the leading bytes of the last chaining words. -/
def digest (size_le : size ≤ 64) (state : State size) : Bytes.Sized size :=
  let words := state.finish
  let word (i : Fin 8) := Bytes.littleEndian 8 words[i].toNat
  ⟨(word 0 ++ word 1 ++ word 2 ++ word 3 ++ word 4 ++ word 5 ++ word 6 ++ word 7).take size, by
    simp [word, Nat.min_eq_left size_le]⟩

end State

theorem size_le : 32 ≤ 64 := by decide

end Blake2b

abbrev Digest := Bytes.Sized 32

abbrev KeyHash := Bytes.Sized 20

def blake2b256 (message : Bytes) : Digest :=
  ((Blake2b.State.empty : Blake2b.State 32).absorb message).digest Blake2b.size_le

def blake2b160 (message : Bytes) : KeyHash :=
  ((Blake2b.State.empty : Blake2b.State 20).absorb message).digest (by decide)

end TezosSigner.Hash
