import TezosSigner.Bytes

/-!
# Secret bytes

Secret bytes are kept in buffers of fixed capacity, and compared without stopping
at the first difference.
-/

namespace TezosSigner

/-- Secret bytes, at most `capacity` of them. -/
structure SecretBytes (capacity : Nat) where
  bytes : Bytes
  length_le : bytes.length ≤ capacity

/-- Keeps as much of a byte string as there is room for. -/
def SecretBytes.ofBytes (capacity : Nat) (bytes : Bytes) : SecretBytes capacity :=
  ⟨bytes.take capacity, List.length_take_le capacity bytes⟩

/-- Compares two byte strings: lengths first, then every byte, collecting the differences. -/
def equalSecrets (left right : Bytes) : Bool :=
  left.length == right.length
    && (left.zip right).foldl (fun difference (x, y) => difference ||| (x ^^^ y)) 0 == 0

end TezosSigner
