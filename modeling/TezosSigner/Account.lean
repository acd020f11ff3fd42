import TezosSigner.Key.Public
import TezosSigner.Text.Base58

/-!
# Accounts and the identifiers shown for them

An implicit account belongs to a key and is named by the key's curve and hash;
an originated account is named by a hash alone. Each kind of identifier has its
own leading bytes, chosen so that its base-58 text begins with letters that tell
the kinds apart.
-/

namespace TezosSigner

open Hash

/-- An account that an operation refers to. -/
inductive Contract where
  | implicit (curve : Curve) (hash : KeyHash)
  | originated (hash : KeyHash)
deriving DecidableEq

namespace Contract

def isOriginated : Contract → Bool
  | .implicit _ _ => false
  | .originated _ => true

def ofKey (key : PublicKey) : Contract :=
  .implicit key.curve key.hash

/-- The leading bytes of an account's text: `tz1`, `tz2` and `tz3` for the curves,
`KT1` for originated accounts. -/
def kindBytes : Contract → Bytes
  | .implicit .ed25519 _ => [0x06, 0xA1, 0x9F]
  | .implicit .secp256k1 _ => [0x06, 0xA1, 0xA1]
  | .implicit .secp256r1 _ => [0x06, 0xA1, 0xA4]
  | .originated _ => [0x02, 0x5A, 0x79]

def hash : Contract → KeyHash
  | .implicit _ hash => hash
  | .originated hash => hash

def text (contract : Contract) : String :=
  Text.base58Check contract.kindBytes contract.hash.val

end Contract

def PublicKey.address (key : PublicKey) : String :=
  (Contract.ofKey key).text

/-- The chain whose identifier is shown by name. -/
def mainnetChainId : UInt32 := 0x7A06A770

/-- The text of a chain identifier. Zero stands for any chain. -/
def chainText (chainId : UInt32) : String :=
  if chainId = 0 then "any"
  else if chainId = mainnetChainId then "mainnet"
  else Text.base58Check [0x57, 0x52, 0x00] (Bytes.ofUInt32 chainId)

def protocolText (hash : Bytes) : String :=
  Text.base58Check [0x02, 0xAA] hash

end TezosSigner
