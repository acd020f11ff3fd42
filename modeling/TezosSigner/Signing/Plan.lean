import TezosSigner.Hash.Blake2b
import TezosSigner.Key.Id

/-!
# Signing plans

A plan says everything about a signature that may still need approval: the key,
the bytes to be signed, and what the host is told.
-/

namespace TezosSigner

/-- How a message is to be signed. -/
inductive SigningKind where
  /-- The digest of the message is signed. -/
  | standard
  /-- The message itself is signed. -/
  | unhashed
  /-- The digest is signed and sent to the host ahead of the signature. -/
  | withHash
deriving DecidableEq, Repr

inductive SigningPayload where
  | digest (digest : Hash.Digest)
  | raw (message : Bytes)
deriving DecidableEq

/-- What the host is told. -/
inductive ReplyForm where
  | signature
  | hashAndSignature
  | hashOnly
deriving DecidableEq, Repr

structure SigningPlan where
  key : KeyId
  payload : SigningPayload
  reply : ReplyForm
deriving DecidableEq

end TezosSigner
