import TezosSigner.Curve
import TezosSigner.Hash.Blake2b

/-!
# Public keys

The host receives an Edwards key as a marked compressed point and a Weierstrass
key as an uncompressed point. Operations hold the compressed form of either, and
an account is named by the hash of that form.
-/

namespace TezosSigner

open Hash

/-- An uncompressed point: a format byte, 32 bytes of X and 32 bytes of Y. -/
abbrev Point := Bytes.Sized 65

inductive PublicKey where
  | ed25519 (compressed : Bytes.Sized 32)
  | secp256k1 (point : Point)
  | secp256r1 (point : Point)
deriving DecidableEq

namespace Point

/-- Sets the sign bit of an Edwards encoding, the top bit of its last byte. -/
def withSignBit (bytes : Bytes) : Bytes :=
  bytes.modify (bytes.length - 1) (· ||| 0x80)

/-- Compresses an Edwards point: Y in little-endian order, with the parity of X as sign bit. -/
def compressEdwards (point : Point) : Bytes.Sized 32 :=
  let y := (point.val.drop 33).reverse
  let xIsOdd := point.val.getD 32 0 &&& 1 = 1
  ⟨if xIsOdd then withSignBit y else y, by
    have h := point.property
    split <;> simp [withSignBit, y, h]⟩

/-- Compresses a Weierstrass point: the parity of Y in a format byte, then X. -/
def compressWeierstrass (point : Point) : Bytes :=
  (0x02 + (point.val.getD 64 0 &&& 1)) :: (point.val.drop 1).take 32

end Point

namespace PublicKey

def ofPoint (curve : Curve) (point : Point) : PublicKey :=
  match curve with
  | .ed25519 => .ed25519 point.compressEdwards
  | .secp256k1 => .secp256k1 point
  | .secp256r1 => .secp256r1 point

def curve : PublicKey → Curve
  | .ed25519 _ => .ed25519
  | .secp256k1 _ => .secp256k1
  | .secp256r1 _ => .secp256r1

def toBytes : PublicKey → Bytes
  | .ed25519 compressed => 0x02 :: compressed.val
  | .secp256k1 point | .secp256r1 point => point.val

/-- The form in which operations hold a key. -/
def compressed : PublicKey → Bytes
  | .ed25519 compressed => compressed.val
  | .secp256k1 point | .secp256r1 point => point.compressWeierstrass

def hash (key : PublicKey) : KeyHash :=
  blake2b160 key.compressed

/-- The reply that hands a key to the host: its length and its bytes. -/
def reply (key : PublicKey) : Bytes :=
  UInt8.ofNat key.toBytes.length :: key.toBytes

end PublicKey

end TezosSigner
