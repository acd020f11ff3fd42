import TezosSigner.Key.Provider

/-!
# Simulated keys

Keys without a secure element. Every secret is a hash of curve and path, and
public keys and signatures are tagged hashes of the secret: they have the sizes
and shapes of real ones and are always the same for the same arguments, but
nobody can verify them.
-/

namespace TezosSigner.Simulated

open Hash

/-- The secret of a key: the hash of its curve's code and its path's components. -/
def secret (key : KeyId) : Digest :=
  blake2b256 (key.curve.code :: key.path.components.flatMap Bytes.ofUInt32)

def tagged (secret : Digest) (tag : Bytes) : Digest :=
  blake2b256 (secret.val ++ tag)

/-- The tag of Edwards keys: the curve's name in lower case. -/
def edwardsTag : Bytes := [0x65, 0x64, 0x32, 0x35, 0x35, 0x31, 0x39]

/-- The tag of the X coordinate of other keys: its letter in lower case. -/
def xTag : Bytes := [0x78]

/-- The tag of the Y coordinate of other keys: its letter in lower case. -/
def yTag : Bytes := [0x79]

def pointOf (x y : Digest) : Point :=
  ⟨0x04 :: (x.val ++ y.val), by simp [x.property, y.property]⟩

def publicKey (key : KeyId) : PublicKey :=
  let seed := secret key
  match key.curve with
  | .ed25519 => .ed25519 (tagged seed edwardsTag)
  | .secp256k1 => .secp256k1 (pointOf (tagged seed xTag) (tagged seed yTag))
  | .secp256r1 => .secp256r1 (pointOf (tagged seed xTag) (tagged seed yTag))

/-- Clears the top bit of the first byte, so that the bytes are a positive integer. -/
def positive (bytes : Bytes) : Bytes :=
  bytes.modify 0 (· &&& 0x7F)

def encodePair (r s : Bytes) : Bytes :=
  [0x30, 0x44, 0x02, 0x20] ++ r ++ [0x02, 0x20] ++ s

/-- The signature of a message: a tagged hash of it and its plain hash. -/
def sign (key : KeyId) (message : Bytes) : Except Status Signature :=
  let r := tagged (secret key) message
  let s := blake2b256 message
  match key.curve with
  | .ed25519 => .ok (.ofEdwards ⟨r.val ++ s.val, by simp [r.property, s.property]⟩)
  | .secp256k1 | .secp256r1 =>
      Signature.ofEncoded (encodePair (positive r.val) (positive s.val))
        (r.val.getD 31 0 &&& 1 == 1)

/-- Simulated keys as a provider; it never refuses. -/
def provider : KeyProvider where
  publicKey key := .ok (publicKey key)
  sign := sign

end TezosSigner.Simulated
