import TezosSigner.Curve
import TezosSigner.Key.Path

/-!
# Key identifiers

Which key of a device is meant: its curve and its derivation path.
-/

namespace TezosSigner

/-- Names one key of a device. -/
structure KeyId where
  curve : Curve
  path : Path
deriving DecidableEq

/-- Reads the identifier of a key from a command: the curve from its parameter, the path
from the beginning of its data. The bytes behind the path are returned as well. -/
def KeyId.read (parameter : UInt8) (data : Bytes) : Except Status (KeyId × Bytes) := do
  let curve ← Curve.ofParameter parameter
  let (path, rest) ← Path.read data
  return (⟨curve, path⟩, rest)

end TezosSigner
