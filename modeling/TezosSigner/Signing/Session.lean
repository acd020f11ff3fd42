import TezosSigner.Key.Id
import TezosSigner.Signing.Buffer

/-!
# Signing sessions

A session collects one message for one key. It is open from the first chunk, which
names the key, until the message is complete or something else comes between.
-/

namespace TezosSigner

/-- The signing session, open or not. -/
structure Session where
  /-- The key named by the first chunk. -/
  key : Option KeyId
  buffer : MessageBuffer
  /-- Whether some chunk asked for the digest alone. -/
  hashOnly : Bool
deriving DecidableEq

namespace Session

def blank : Session := ⟨none, .empty, false⟩

/-- Whether a message is being collected. -/
def isOpen (session : Session) : Bool :=
  session.key.isSome

def reset (session : Session) : Session :=
  ⟨none, session.buffer.clear, false⟩

end Session

end TezosSigner
