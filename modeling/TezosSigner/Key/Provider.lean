import TezosSigner.Key.Id
import TezosSigner.Key.Public
import TezosSigner.Key.Signature

/-!
# Key providers

The signer never sees a private key. It asks a provider for the public key at a
path, and for a signature over a byte string under the key at a path. Either may
fail. The answers depend on the arguments alone.
-/

namespace TezosSigner

/-- Answers for the keys of one device. -/
structure KeyProvider where
  publicKey : KeyId → Except Status PublicKey
  /-- Signs a byte string as it is. -/
  sign : KeyId → Bytes → Except Status Signature

end TezosSigner
