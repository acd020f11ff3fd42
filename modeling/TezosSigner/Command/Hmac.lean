import TezosSigner.Command.Action
import TezosSigner.Command.Effect
import TezosSigner.Command.Frame
import TezosSigner.Hash.Hmac
import TezosSigner.Key.Secret

/-!
# Keyed hashes

The host may ask for a message authentication code under a secret that only the
device can make: the hash of its signature over a fixed value.
-/

namespace TezosSigner.Command

/-- The value whose signature gives the secret. -/
def hmacSeed : Bytes :=
  [0x6C, 0x4E, 0x7E, 0x70, 0x6C, 0x54, 0xD3, 0x67, 0xC8, 0x7A, 0x8D, 0x89, 0xC1, 0x6A, 0xDF, 0xE0,
    0x6C, 0xB5, 0x68, 0x0C, 0xB7, 0xD1, 0x8E, 0x62, 0x5A, 0x90, 0x47, 0x5E, 0xC0, 0xDB, 0xDB, 0x9F]

/-- Authenticates the bytes behind the path with the SHA-512 digest of the key's signature
over the fixed value. -/
def hmac {σ : Type} (keys : KeyProvider) (p1 p2 : UInt8) (data : Bytes) :
    Command σ Reaction := do
  require (p1 == 0) .wrongParam
  require (data.length ≤ Frame.maxDataLength) .wrongLengthForInstruction
  let (key, message) ← ofExcept (KeyId.read p2 data)
  let signature ← sign keys key hmacSeed
  let secret := SecretBytes.ofBytes 64 (Hash.sha512 signature.bytes)
  return .reply (Hash.hmacSha256 secret.bytes message)

end TezosSigner.Command
