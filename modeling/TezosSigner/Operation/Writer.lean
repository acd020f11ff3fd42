import TezosSigner.Operation.Basic
import TezosSigner.Wire.Varint

/-!
# Writing operations

The wire forms of the operations that the signer reviews, and of the scripts for
manager contracts. Accounts are given by their bytes, so that forms which no
signer accepts can be written as well. Counter, gas limit and branch play no part
in a review and always have the same values.
-/

namespace TezosSigner.Wire

open Hash

/-- The bytes of an implicit account: curve code and hash. -/
abbrev AccountBytes := Bytes.Sized 21

/-- The bytes of an account where either kind may stand. -/
abbrev ContractBytes := Bytes.Sized 22

/-- The bytes of the implicit account with a curve and a hash. -/
def accountBytes (curve : Curve) (hash : KeyHash) : AccountBytes :=
  ⟨curve.code :: hash.val, by simp [hash.property]⟩

def keyAccountBytes (key : PublicKey) : AccountBytes :=
  accountBytes key.curve key.hash

/-- An implicit account where either kind may stand: behind a zero. -/
def implicitBytes (account : AccountBytes) : ContractBytes :=
  ⟨0x00 :: account.val, by simp [account.property]⟩

/-- An originated account where either kind may stand: behind a one, and padded. -/
def originatedBytes (hash : KeyHash) : ContractBytes :=
  ⟨0x01 :: (hash.val ++ [0x00]), by simp [hash.property]⟩

inductive ManagerScript where
  | setDelegate (delegate : AccountBytes)
  | withdrawDelegate
  | transferToImplicit (account : AccountBytes) (amount : UInt64)
  | transferToOriginated (hash : KeyHash) (amount : UInt64)

def framed (bytes : Bytes) : Bytes :=
  Bytes.bigEndian 4 bytes.length ++ bytes

def bytesLiteral (bytes : Bytes) : Bytes :=
  0x0A :: framed bytes

/-- The end of a transfer: an amount, unit, and the transfer itself. -/
def transferBytes (amount : UInt64) : Bytes :=
  [0x07, 0x43, 0x03, 0x6A, 0x00] ++ scriptNat amount ++ [0x03, 0x4F, 0x03, 0x4D]

/-- The code that looks a contract up at an address and fails when there is none. -/
def contractLookup : Bytes :=
  [0x05, 0x55, 0x03, 0x6C,
    0x02, 0x00, 0x00, 0x00, 0x15, 0x07, 0x2F, 0x02, 0x00, 0x00, 0x00, 0x09, 0x02,
    0x00, 0x00, 0x00, 0x04, 0x03, 0x4F, 0x03, 0x27, 0x02, 0x00, 0x00, 0x00, 0x00]

namespace ManagerScript

/-- What a script does between its common beginning and its common end. -/
def actionBytes : ManagerScript → Bytes
  | .setDelegate delegate =>
      [0x07, 0x43, 0x03, 0x5D] ++ bytesLiteral delegate.val ++ [0x03, 0x46, 0x03, 0x4E]
  | .withdrawDelegate => [0x05, 0x3E, 0x03, 0x5D, 0x03, 0x4E]
  | .transferToImplicit account amount =>
      [0x07, 0x43, 0x03, 0x5D] ++ bytesLiteral account.val ++ [0x03, 0x1E]
        ++ transferBytes amount
  | .transferToOriginated hash amount =>
      [0x07, 0x43, 0x03, 0x6E] ++ bytesLiteral (originatedBytes hash).val ++ contractLookup
        ++ transferBytes amount

/-- A script as a sequence of primitives behind its length. -/
def toBytes (script : ManagerScript) : Bytes :=
  0x02 :: framed ([0x03, 0x20, 0x05, 0x3D, 0x03, 0x6D] ++ script.actionBytes ++ [0x03, 0x1B])

end ManagerScript

/-- The parameters that hand a script to a manager contract: its entrypoint, and the
script behind its length. -/
def managerCall (script : Bytes) : Bytes :=
  0x02 :: framed script

def counter : UInt64 := 2019617

def gasLimit : UInt64 := 10300

def branch : Digest := .fill 32 0xBB

def managerFields (fee storageLimit : UInt64) : Bytes :=
  varint fee ++ varint counter ++ varint gasLimit ++ varint storageLimit

/-- Something behind a byte that tells whether it is there. -/
def optional (bytes : Option Bytes) : Bytes :=
  match bytes with
  | some bytes => 0xFF :: bytes
  | none => [0x00]

inductive WireOperation where
  | reveal (source : AccountBytes) (fee storageLimit : UInt64) (key : PublicKey)
  | transaction (source : AccountBytes) (fee storageLimit amount : UInt64)
      (destination : ContractBytes) (parameters : Option Bytes)
  /-- A transaction of the older era, whose source may be an account of either kind. -/
  | contractTransaction (source : ContractBytes) (fee storageLimit amount : UInt64)
      (destination : ContractBytes)
  | origination (source : AccountBytes) (fee storageLimit : UInt64) (manager : AccountBytes)
      (balance : UInt64) (spendable delegatable : Bool) (delegate : Option AccountBytes)
      (hasScript : Bool)
  | delegation (source : AccountBytes) (fee storageLimit : UInt64)
      (delegate : Option AccountBytes)
  | proposal (source : AccountBytes) (period : Int32) (protocolHash : Digest)
  | ballot (source : AccountBytes) (period : Int32) (protocolHash : Digest) (vote : UInt8)

namespace WireOperation

/-- The bytes of an operation. -/
def toBytes : WireOperation → Bytes
  | .reveal source fee storageLimit key =>
      107 :: (source.val ++ managerFields fee storageLimit ++ (key.curve.code :: key.compressed))
  | .transaction source fee storageLimit amount destination parameters =>
      108 :: (source.val ++ managerFields fee storageLimit ++ varint amount ++ destination.val
        ++ optional parameters)
  | .contractTransaction source fee storageLimit amount destination =>
      8 :: (source.val ++ managerFields fee storageLimit ++ varint amount ++ destination.val
        ++ [0x00])
  | .origination source fee storageLimit manager balance spendable delegatable delegate
      hasScript =>
      109 :: (source.val ++ managerFields fee storageLimit ++ manager.val ++ varint balance
        ++ [Bytes.flag spendable, Bytes.flag delegatable] ++ optional (delegate.map (·.val))
        ++ [Bytes.flag hasScript])
  | .delegation source fee storageLimit delegate =>
      110 :: (source.val ++ managerFields fee storageLimit ++ optional (delegate.map (·.val)))
  | .proposal source period protocolHash =>
      5 :: (source.val ++ Bytes.ofInt32 period ++ framed protocolHash.val)
  | .ballot source period protocolHash vote =>
      6 :: (source.val ++ Bytes.ofInt32 period ++ protocolHash.val ++ [vote])

end WireOperation

def groupBytes (operations : List Bytes) : Bytes :=
  0x03 :: (branch.val ++ operations.flatten)

end TezosSigner.Wire
