import TezosSigner.Command.Action
import TezosSigner.Command.Effect
import TezosSigner.Review.Account

/-!
# Commands about public keys

A key is handed to the host, with or without showing its address first, or it is
made the baking key once the user approves.
-/

namespace TezosSigner.Command

variable {σ : Type}

/-- Reads the identifier of a key from a command and asks for its public key. Only a first
parameter of zero is understood, and bytes behind the path are ignored. -/
def derive (keys : KeyProvider) (p1 p2 : UInt8) (data : Bytes) :
    Command σ (KeyId × PublicKey) := do
  require (p1 == 0) .wrongParam
  let (key, _) ← ofExcept (KeyId.read p2 data)
  return (key, ← ofExcept (keys.publicKey key))

def providePublicKey (keys : KeyProvider) (display : Bool) (p1 p2 : UInt8) (data : Bytes) :
    Command σ Reaction := do
  let (_, publicKey) ← derive keys p1 p2 data
  if display then
    return .confirm (.providePublicKey publicKey.address) (.providePublicKey publicKey)
  else return .reply publicKey.reply

def authorizeBaking (keys : KeyProvider) (p1 p2 : UInt8) (data : Bytes) :
    Command σ Reaction := do
  let (key, publicKey) ← derive keys p1 p2 data
  return .confirm (.authorizeBaking publicKey.address) (.authorizeBaking key publicKey)

end TezosSigner.Command
