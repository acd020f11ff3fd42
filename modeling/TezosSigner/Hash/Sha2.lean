import TezosSigner.Bytes

/-!
# SHA-256 and SHA-512

Both functions are one construction over words of 32 and of 64 bits: the
padded message is cut into blocks of sixteen words, and each block updates
eight chaining words in a fixed number of rounds. A variant lists the word
size's constants and shift distances.
-/

namespace TezosSigner.Hash

namespace Sha2

structure Registers (width : Nat) where
  a : BitVec width
  b : BitVec width
  c : BitVec width
  d : BitVec width
  e : BitVec width
  f : BitVec width
  g : BitVec width
  h : BitVec width

namespace Registers

variable {width : Nat}

def add (left right : Registers width) : Registers width where
  a := left.a + right.a
  b := left.b + right.b
  c := left.c + right.c
  d := left.d + right.d
  e := left.e + right.e
  f := left.f + right.f
  g := left.g + right.g
  h := left.h + right.h

def toList (r : Registers width) : List (BitVec width) :=
  [r.a, r.b, r.c, r.d, r.e, r.f, r.g, r.h]

end Registers

/-- What tells one word size from another. Each mixing function rotates by three
distances and adds the results without carry; the third distance of the two
schedule functions is a shift. -/
structure Variant (width : Nat) where
  start : Registers width
  constants : List (BitVec width)
  sum0 : Nat × Nat × Nat
  sum1 : Nat × Nat × Nat
  schedule0 : Nat × Nat × Nat
  schedule1 : Nat × Nat × Nat

variable {width : Nat}

def rotations (distances : Nat × Nat × Nat) (word : BitVec width) : BitVec width :=
  word.rotateRight distances.1 ^^^ word.rotateRight distances.2.1
    ^^^ word.rotateRight distances.2.2

def rotationsAndShift (distances : Nat × Nat × Nat) (word : BitVec width) : BitVec width :=
  word.rotateRight distances.1 ^^^ word.rotateRight distances.2.1 ^^^ (word >>> distances.2.2)

/-- The word that follows sixteen words of the message schedule. -/
def nextWord (variant : Variant width) (window : List (BitVec width)) : BitVec width :=
  rotationsAndShift variant.schedule1 (window.getD 14 0) + window.getD 9 0
    + rotationsAndShift variant.schedule0 (window.getD 1 0) + window.getD 0 0

/-- One round: mixes the window's first word into the registers and moves the
window on by one word of the schedule. -/
def round (variant : Variant width) (state : Registers width × List (BitVec width))
    (constant : BitVec width) : Registers width × List (BitVec width) :=
  let (r, window) := state
  let choice := (r.e &&& r.f) ^^^ (~~~r.e &&& r.g)
  let majority := (r.a &&& r.b) ^^^ (r.a &&& r.c) ^^^ (r.b &&& r.c)
  let first := r.h + rotations variant.sum1 r.e + choice + constant + window.getD 0 0
  let second := rotations variant.sum0 r.a + majority
  let mixed : Registers width :=
    { a := first + second, b := r.a, c := r.b, d := r.c,
      e := r.d + first, f := r.e, g := r.f, h := r.g }
  (mixed, window.drop 1 ++ [nextWord variant window])

/-- Updates the chaining words by one block of sixteen words. -/
def compress (variant : Variant width) (chain : Registers width) (block : Bytes) :
    Registers width :=
  let window := (block.pieces (width / 8) 16).map fun piece => BitVec.ofNat width piece.toNat
  chain.add (variant.constants.foldl (round variant) (chain, window)).1

/-- The padding of a message: a marker byte, as few zero bytes as complete a
block, and the length of the message in bits. -/
def padding (width length : Nat) : Bytes :=
  let block := 2 * width
  let lengthField := width / 4
  let zeros := (block - (length + 1 + lengthField) % block) % block
  0x80 :: (List.replicate zeros 0 ++ Bytes.bigEndian lengthField (8 * length))

/-- The digest of a message: the chaining words behind its last block. -/
def hash (variant : Variant width) (message : Bytes) : Bytes :=
  let padded := message ++ padding width message.length
  let blocks := padded.pieces (2 * width) (padded.length / (2 * width))
  (blocks.foldl (compress variant) variant.start).toList.flatMap fun word =>
    Bytes.bigEndian (width / 8) word.toNat

/-- SHA-256 works on words of 32 bits in 64 rounds. -/
def variant256 : Variant 32 where
  start :=
    { a := 0x6a09e667, b := 0xbb67ae85, c := 0x3c6ef372, d := 0xa54ff53a,
      e := 0x510e527f, f := 0x9b05688c, g := 0x1f83d9ab, h := 0x5be0cd19 }
  constants :=
    [0x428a2f98, 0x71374491, 0xb5c0fbcf, 0xe9b5dba5, 0x3956c25b, 0x59f111f1,
      0x923f82a4, 0xab1c5ed5, 0xd807aa98, 0x12835b01, 0x243185be, 0x550c7dc3,
      0x72be5d74, 0x80deb1fe, 0x9bdc06a7, 0xc19bf174, 0xe49b69c1, 0xefbe4786,
      0x0fc19dc6, 0x240ca1cc, 0x2de92c6f, 0x4a7484aa, 0x5cb0a9dc, 0x76f988da,
      0x983e5152, 0xa831c66d, 0xb00327c8, 0xbf597fc7, 0xc6e00bf3, 0xd5a79147,
      0x06ca6351, 0x14292967, 0x27b70a85, 0x2e1b2138, 0x4d2c6dfc, 0x53380d13,
      0x650a7354, 0x766a0abb, 0x81c2c92e, 0x92722c85, 0xa2bfe8a1, 0xa81a664b,
      0xc24b8b70, 0xc76c51a3, 0xd192e819, 0xd6990624, 0xf40e3585, 0x106aa070,
      0x19a4c116, 0x1e376c08, 0x2748774c, 0x34b0bcb5, 0x391c0cb3, 0x4ed8aa4a,
      0x5b9cca4f, 0x682e6ff3, 0x748f82ee, 0x78a5636f, 0x84c87814, 0x8cc70208,
      0x90befffa, 0xa4506ceb, 0xbef9a3f7, 0xc67178f2]
  sum0 := (2, 13, 22)
  sum1 := (6, 11, 25)
  schedule0 := (7, 18, 3)
  schedule1 := (17, 19, 10)

/-- SHA-512 works on words of 64 bits in 80 rounds. -/
def variant512 : Variant 64 where
  start :=
    { a := 0x6a09e667f3bcc908, b := 0xbb67ae8584caa73b,
      c := 0x3c6ef372fe94f82b, d := 0xa54ff53a5f1d36f1,
      e := 0x510e527fade682d1, f := 0x9b05688c2b3e6c1f,
      g := 0x1f83d9abfb41bd6b, h := 0x5be0cd19137e2179 }
  constants :=
    [0x428a2f98d728ae22, 0x7137449123ef65cd, 0xb5c0fbcfec4d3b2f, 0xe9b5dba58189dbbc,
      0x3956c25bf348b538, 0x59f111f1b605d019, 0x923f82a4af194f9b, 0xab1c5ed5da6d8118,
      0xd807aa98a3030242, 0x12835b0145706fbe, 0x243185be4ee4b28c, 0x550c7dc3d5ffb4e2,
      0x72be5d74f27b896f, 0x80deb1fe3b1696b1, 0x9bdc06a725c71235, 0xc19bf174cf692694,
      0xe49b69c19ef14ad2, 0xefbe4786384f25e3, 0x0fc19dc68b8cd5b5, 0x240ca1cc77ac9c65,
      0x2de92c6f592b0275, 0x4a7484aa6ea6e483, 0x5cb0a9dcbd41fbd4, 0x76f988da831153b5,
      0x983e5152ee66dfab, 0xa831c66d2db43210, 0xb00327c898fb213f, 0xbf597fc7beef0ee4,
      0xc6e00bf33da88fc2, 0xd5a79147930aa725, 0x06ca6351e003826f, 0x142929670a0e6e70,
      0x27b70a8546d22ffc, 0x2e1b21385c26c926, 0x4d2c6dfc5ac42aed, 0x53380d139d95b3df,
      0x650a73548baf63de, 0x766a0abb3c77b2a8, 0x81c2c92e47edaee6, 0x92722c851482353b,
      0xa2bfe8a14cf10364, 0xa81a664bbc423001, 0xc24b8b70d0f89791, 0xc76c51a30654be30,
      0xd192e819d6ef5218, 0xd69906245565a910, 0xf40e35855771202a, 0x106aa07032bbd1b8,
      0x19a4c116b8d2d0c8, 0x1e376c085141ab53, 0x2748774cdf8eeb99, 0x34b0bcb5e19b48a8,
      0x391c0cb3c5c95a63, 0x4ed8aa4ae3418acb, 0x5b9cca4f7763e373, 0x682e6ff3d6b2b8a3,
      0x748f82ee5defb2fc, 0x78a5636f43172f60, 0x84c87814a1f0ab72, 0x8cc702081a6439ec,
      0x90befffa23631e28, 0xa4506cebde82bde9, 0xbef9a3f7b2c67915, 0xc67178f2e372532b,
      0xca273eceea26619c, 0xd186b8c721c0c207, 0xeada7dd6cde0eb1e, 0xf57d4f7fee6ed178,
      0x06f067aa72176fba, 0x0a637dc5a2c898a6, 0x113f9804bef90dae, 0x1b710b35131c471b,
      0x28db77f523047d84, 0x32caab7b40c72493, 0x3c9ebe0a15c9bebc, 0x431d67c49c100d4c,
      0x4cc5d4becb3e42b6, 0x597f299cfc657e2a, 0x5fcb6fab3ad6faec, 0x6c44198c4a475817]
  sum0 := (28, 34, 39)
  sum1 := (14, 18, 41)
  schedule0 := (1, 8, 7)
  schedule1 := (19, 61, 6)

end Sha2

def sha256 (message : Bytes) : Bytes :=
  Sha2.hash Sha2.variant256 message

def sha512 (message : Bytes) : Bytes :=
  Sha2.hash Sha2.variant512 message

end TezosSigner.Hash
