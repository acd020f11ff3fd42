import TezosSigner.Baking.State
import TezosSigner.Key.Public
import TezosSigner.Review.Prompt
import TezosSigner.Signing.Plan
import TezosSigner.Status

/-!
# What a command leads to

A command is answered at once, or it shows a prompt and leaves an action behind that
is performed once the prompt has been approved.
-/

namespace TezosSigner

/-- What waits for the user's approval. -/
inductive PendingAction where
  | sign (plan : SigningPlan)
  | providePublicKey (publicKey : PublicKey)
  | authorizeBaking (key : KeyId) (publicKey : PublicKey)
  | setup (setup : Setup) (publicKey : PublicKey)
  | reset (level : UInt32)
deriving DecidableEq

/-- How a command ends when it does not fail. -/
inductive Reaction where
  | reply (payload : Bytes)
  | confirm (prompt : Prompt) (action : PendingAction)
deriving DecidableEq

/-- What is sent to the host. -/
structure Response where
  payload : Bytes
  status : Status
deriving DecidableEq

namespace Response

def success (payload : Bytes) : Response := ⟨payload, .ok⟩

/-- A failure, which never has a payload. -/
def failure (status : Status) : Response := ⟨[], status⟩

def toBytes (response : Response) : Bytes :=
  response.payload ++ Bytes.ofUInt16 response.status.word

end Response

end TezosSigner
