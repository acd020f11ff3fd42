import TezosSigner.Operation.Script

/-!
# Decoding operation groups

A group is a mark, a branch hash and a sequence of operations: any number of
reveals of the signing key, then exactly one other operation, which ends the
bytes. Fees and storage limits are summed over all of them.
-/

namespace TezosSigner.OperationGroup

open Decoder

/-- The first byte of every operation group. -/
def mark : UInt8 := 0x03

/-- What the operations read so far add to the group. -/
structure Totals where
  fee : UInt64
  storageLimit : UInt64
  hasReveal : Bool
deriving DecidableEq

def Totals.zero : Totals := ⟨0, 0, false⟩

/-- Adds the fee and the storage limit of one more operation, modulo 2 to the 64. -/
def Totals.add (totals : Totals) (fee storageLimit : UInt64) : Totals :=
  { totals with fee := totals.fee + fee, storageLimit := totals.storageLimit + storageLimit }

/-- The tags of the older era, whose operations name their source as an account of either
kind. -/
def hasContractSource (tag : UInt8) : Bool :=
  tag == 7 || tag == 8 || tag == 9 || tag == 10

/-- The tag whose transactions may carry a manager script. -/
def scriptedTag : UInt8 := 108

/-- Reads the source of an operation, in the form that its tag asks for. -/
def source (tag : UInt8) : Decoder Contract :=
  if hasContractSource tag then contract else implicitAccount

/-- Reads fee, counter, gas limit and storage limit, and keeps the first and the last. -/
def managerFields : Decoder (UInt64 × UInt64) := do
  let fee ← varint
  let _counter ← varint
  let _gasLimit ← varint
  let storageLimit ← varint
  return (fee, storageLimit)

def addManagerFields (type : OperationType) (totals : Totals) : Decoder Totals := do
  if type.hasManagerFields then
    let (fee, storageLimit) ← managerFields
    return totals.add fee storageLimit
  else return totals

/-- Reads a public key, which has to be the one that signs. -/
def revealedKey (key : PublicKey) : Decoder Unit := do
  require ((← curve) == key.curve)
  literal key.compressed

/-- Reads the parameters of a transaction. Only the newer era has them, and the transaction
must move nothing itself and go to an originated account. -/
def parameters (tag : UInt8) (amount : UInt64) (destination : Contract) :
    Decoder (Option ManagerAction) := do
  let flag ← byte
  if flag = 0x00 then return none
  else if flag = 0xFF then
    require (tag == scriptedTag && amount == 0 && destination.isOriginated)
    return some (← Script.managerCall)
  else malformed

def transaction (tag : UInt8) : Decoder OperationKind := do
  let amount ← varint
  let destination ← contract
  return .transaction amount destination (← parameters tag amount destination)

/-- Reads a new account's manager, balance, flags and delegate. It must have no script. -/
def origination : Decoder OperationKind := do
  let manager ← implicitAccount
  let balance ← varint
  let spendable ← byte
  let delegatable ← byte
  let delegate ← optionalAccount
  literal [0x00]
  return .origination manager balance (spendable != 0) (delegatable != 0) delegate

/-- Reads a period and exactly one protocol hash behind its length. -/
def proposal : Decoder OperationKind := do
  let period ← int32
  require ((← uint32) == 32)
  return .proposal period (← sized 32)

def voteOfByte? (byte : UInt8) : Option Vote :=
  if byte = 0 then some .yea
  else if byte = 1 then some .nay
  else if byte = 2 then some .pass
  else none

def ballot : Decoder OperationKind := do
  let period ← int32
  let proposal ← sized 32
  match voteOfByte? (← byte) with
  | some vote => return .ballot period proposal vote
  | none => malformed

def kind (tag : UInt8) : OperationType → Decoder OperationKind
  | .transaction => transaction tag
  | .origination => origination
  | .delegation => return .delegation (← optionalAccount)
  | .proposal => proposal
  | .ballot => ballot
  | .reveal => malformed

/-- Reads a tag and looks up its type, which has to be allowed. -/
def allowedTag (allowed : AllowedOperations) : Decoder (UInt8 × OperationType) := do
  let tag ← byte
  match (OperationType.ofTag? tag).filter allowed with
  | some type => return (tag, type)
  | none => malformed

/-- An implicit account is the source only of what its own key signs; an originated
account leaves open who signs for it. -/
def sourceMaySign (source signing : Contract) : Bool :=
  source.isOriginated || source == signing

/-- Reads the last operation behind the fields that it shares with others; nothing may
follow it. -/
def lastOperation (signing : Contract) (tag : UInt8) (type : OperationType)
    (source : Contract) (totals : Totals) : Decoder OperationGroup := do
  require (sourceMaySign source signing)
  let kind ← kind tag type
  finish
  return {
    signing
    totalFee := totals.fee
    totalStorageLimit := totals.storageLimit
    hasReveal := totals.hasReveal
    operation := { tag, source, kind } }

/-- Reads operations up to the first one that is no reveal. The count bounds the number of
reveals; one for every byte is enough, since no operation is empty. -/
def operations (key : PublicKey) (allowed : AllowedOperations) :
    Nat → Totals → Decoder OperationGroup
  | 0, _ => throw .nothingToSign
  | count + 1, totals => do
      if ← atEnd then throw .nothingToSign
      else
        let (tag, type) ← allowedTag allowed
        let source ← source tag
        let totals ← addManagerFields type totals
        if type = .reveal then
          revealedKey key
          operations key allowed count { totals with hasReveal := true }
        else lastOperation (.ofKey key) tag type source totals

/-- Reads a whole group: mark, branch and operations. -/
def group (key : PublicKey) (allowed : AllowedOperations) (size : Nat) :
    Decoder OperationGroup := do
  literal [mark]
  let _branch ← take 32
  operations key allowed size .zero

/-- Decodes the group that a byte string holds, to be signed with a given key. -/
def ofBytes (key : PublicKey) (allowed : AllowedOperations) (bytes : Bytes) :
    Except DecodeError OperationGroup :=
  match (group key allowed bytes.length).decode bytes with
  | .ok (group, _) => .ok group
  | .error cause => .error cause

end TezosSigner.OperationGroup
