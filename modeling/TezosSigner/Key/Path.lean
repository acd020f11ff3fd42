import TezosSigner.Bytes
import TezosSigner.Status

/-!
# Derivation paths

A key is found by a path of at most ten 32-bit components. On the wire a path is
a count byte and the components in big-endian order. The empty path stands for
no path; it is never read from the wire.
-/

namespace TezosSigner

def Path.capacity : Nat := 10

structure Path where
  components : List UInt32
  length_le : components.length ≤ Path.capacity
deriving DecidableEq

namespace Path

def empty : Path :=
  ⟨[], Nat.zero_le _⟩

def isEmpty (path : Path) : Bool :=
  path.components.isEmpty

/-- A path of one to ten components. -/
def ofList (components : List UInt32) : Except Status Path :=
  if h : components ≠ [] ∧ components.length ≤ capacity then .ok ⟨components, h.2⟩
  else .error .wrongValues

/-- The usual path of a first account: purpose 44, coin type 1729, account and change zero, all
hardened. -/
def standard : Path :=
  ⟨[0x8000002C, 0x800006C1, 0x80000000, 0x80000000], by decide⟩

def toBytes (path : Path) : Bytes :=
  UInt8.ofNat path.components.length :: path.components.flatMap Bytes.ofUInt32

/-- Reads a path and returns it with the bytes behind it. Too few bytes for the count
are a fault of length; enough bytes with a count of zero or above ten are a fault
of value. -/
def read : Bytes → Except Status (Path × Bytes)
  | [] => .error .wrongLengthForInstruction
  | count :: rest =>
      if rest.length < 4 * count.toNat then .error .wrongLengthForInstruction
      else if h : count.toNat ≠ 0 ∧ count.toNat ≤ capacity then
        .ok (⟨(Bytes.pieces 4 count.toNat rest).map Bytes.toUInt32, by simpa using h.2⟩,
          rest.drop (4 * count.toNat))
      else .error .wrongValues

/-- Reads a path that takes up the whole byte string. -/
def ofBytes (bytes : Bytes) : Except Status Path :=
  match read bytes with
  | .ok (path, []) => .ok path
  | .ok (_, _ :: _) => .error .wrongLength
  | .error status => .error status

end Path

end TezosSigner
