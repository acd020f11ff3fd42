import TezosSigner.Hash.Sha2

/-!
# Keyed SHA-256

The message authentication code hashes the message twice under the key: once
behind the key with one mask, and the result again behind the key with
another.
-/

namespace TezosSigner.Hash

/-- The block size of SHA-256, to which keys are brought. -/
def hmacBlock : Nat := 64

/-- A key brought to the block size: hashed first when longer, then filled with zeros. -/
def hmacKey (key : Bytes) : Bytes :=
  let short := if key.length ≤ hmacBlock then key else sha256 key
  short ++ List.replicate (hmacBlock - short.length) 0

def hmacSha256 (key message : Bytes) : Bytes :=
  let masked (mask : UInt8) := (hmacKey key).map (· ^^^ mask)
  sha256 (masked 0x5c ++ sha256 (masked 0x36 ++ message))

end TezosSigner.Hash
